import RecordQuery.Options
import RecordQuery.Text.Utf8
import RecordQuery.Toml.Document

/-!
# Options from TOML

Options are read from the keys `max_top` and `max_property_mapping_depth` of a TOML text; other keys
are passed over, and missing ones leave the default. Both stand for whole numbers not below zero.
-/

namespace RecordQuery

namespace Options

/-- The number that a key stands for, if the key is there. -/
def number? (es : Toml.Entries) (key : String) : Option (Option Nat) :=
  match es.lookup key with
  | none => some none
  | some (.integer (.ofNat n)) => some (some n)
  | some _ => none

/-- The options of the tables of a text. -/
def ofEntries? (es : Toml.Entries) : Option Options := do
  let maxTop ← number? es "max_top"
  let depth ← number? es "max_property_mapping_depth"
  return { maxTop := maxTop, depth := depth.getD ({} : Options).depth }

/-- The options of a text, if they can be used. -/
def ofToml (s : String) : Except QueryError Options := do
  match (Toml.Entries.ofText? s).bind ofEntries? with
  | none => .error (.invalidOptions .unparsable)
  | some o =>
    o.validate
    return o

/-- The options of a file's bytes; no bytes stand for a file that is not there. -/
def ofFile (bytes : Option (List UInt8)) : Except QueryError Options :=
  match bytes.bind Utf8.decode? with
  | none => .error (.invalidOptions .unreadable)
  | some cs => ofToml (String.ofList cs)

end Options

end RecordQuery
