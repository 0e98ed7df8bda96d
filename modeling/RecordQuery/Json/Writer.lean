import RecordQuery.Number.Hex
import RecordQuery.Query

/-!
# Writing JSON

Queries, options and pages as JSON texts without any blanks.
-/

namespace RecordQuery

namespace JsonText

/-- A character in a JSON string: quotes, backslashes and controls are escaped. -/
def escape (c : Char) : List Char :=
  match c with
  | '"' => ['\\', '"']
  | '\\' => ['\\', '\\']
  | '\x08' => ['\\', 'b']
  | '\x0c' => ['\\', 'f']
  | '\n' => ['\\', 'n']
  | '\r' => ['\\', 'r']
  | '\t' => ['\\', 't']
  | c =>
    if c.toNat < 0x20 then ['\\', 'u'] ++ Number.hexPadded 4 c.toNat else [c]

/-- A text as a JSON string. -/
def string (s : String) : String :=
  String.ofList ('"' :: s.toList.flatMap escape ++ ['"'])

/-- A truth value. -/
def bool (b : Bool) : String := if b then "true" else "false"

/-- An array of values that are already written. -/
def array (items : List String) : String := "[" ++ ",".intercalate items ++ "]"

/-- An object of members, of which some may be left out, with values that are already written. -/
def object (members : List (String × Option String)) : String :=
  let written := members.filterMap fun (name, value) => value.map (string name ++ ":" ++ ·)
  "\x7b" ++ ",".intercalate written ++ "\x7d"

end JsonText

/-- The JSON text of a query. -/
def Query.toJson (q : Query) : String :=
  JsonText.object
    [("filter", q.filter.map JsonText.string), ("orderBy", q.orderBy.map JsonText.string),
     ("skip", q.skip.map toString), ("top", q.top.map toString),
     ("count", some (JsonText.bool q.count)), ("search", q.search.map JsonText.string)]

/-- The JSON text of options. -/
def Options.toJson (o : Options) : String :=
  JsonText.object
    [("max_top", o.maxTop.map toString), ("max_property_mapping_depth", some (toString o.depth))]

/-- The JSON text of a page, with a way to write its records. -/
def Page.toJson {σ : Type} (write : σ → String) (p : Page σ) : String :=
  JsonText.object [("value", some (write p.value)), ("count", p.count.map toString)]

end RecordQuery
