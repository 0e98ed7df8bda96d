import RecordQuery.Toml.Number

/-!
# TOML documents

The tables of a TOML text. Values are looked at only as far as needed to know that a text is one: of
a value it is kept whether it is a whole number, and which. A key may be given once. Tables come to
be in three ways, and each restricts how a table can grow later: by a header, which may be given
once for a table; as the way to another table's header; and as the way to a dotted key.
-/

namespace RecordQuery

namespace Toml

/-! ### Tables -/

/-- What a key stands for. -/
inductive Node where
  | integer (n : Int)
  /-- Any other value, which is closed to further keys. -/
  | leaf
  /-- A table: whether it has no header of its own yet, whether dotted keys led to it, and its
  entries. -/
  | table (implicit dotted : Bool) (entries : List (String × Node))
  /-- Tables under one key, by the entries of the last. -/
  | tables (last : List (String × Node))

/-- Keys with what they stand for. -/
abbrev Entries := List (String × Node)

/-- Entries with a key set anew. -/
def Entries.put (es : Entries) (key : String) (n : Node) : Entries :=
  (key, n) :: es.filter (·.1 != key)

/-- Changes the table at the end of a way from a table with entries `es`; the change is told whether
dotted keys led to its table. Tables that are missing on the way are made, and `dotted` says whether
dotted keys lead this way: these may not enter a table with a header. -/
def Entries.change (dotted : Bool) (f : Bool → Entries → Option Entries) (ledByDots : Bool)
    (es : Entries) : (way : List String) → Option Entries
  | [] => f ledByDots es
  | key :: way =>
    match (es.lookup key).getD (.table true dotted []) with
    | .integer _ => none
    | .leaf => none
    | .tables last => (change dotted f false last way).map fun last => es.put key (.tables last)
    | .table implicit wasDotted inner =>
      if dotted && !implicit then none
      else (change dotted f wasDotted inner way).map fun inner =>
        es.put key (.table implicit wasDotted inner)

/-- Gives a new key a value, in the table at the end of a dotted way. -/
def Entries.assign (es : Entries) (way : List String) (key : String) (n : Node) : Option Entries :=
  change true
    (fun ledByDots es =>
      if ledByDots == way.isEmpty || (es.lookup key).isSome then none else some (es.put key n))
    false es way

/-- Opens a table by its header. -/
def Entries.openTable (es : Entries) (way : List String) (key : String) : Option Entries :=
  change false
    (fun _ es =>
      match es.lookup key with
      | none => some (es.put key (.table false false []))
      | some (.table true false inner) => some (es.put key (.table false false inner))
      | some _ => none)
    false es way

/-- Opens one more table under a key by its header. -/
def Entries.openItem (es : Entries) (way : List String) (key : String) : Option Entries :=
  change false
    (fun _ es =>
      match es.lookup key with
      | none => some (es.put key (.tables []))
      | some (.tables _) => some (es.put key (.tables []))
      | some _ => none)
    false es way

/-! ### Values -/

/-- Reads a value. -/
abbrev ValueReader := List Char → Option (Node × List Char)

/-- Drops the items of an array that has some, of no more than `fuel` items, with its bracket. -/
def dropItems (inner : ValueReader) : (fuel : Nat) → List Char → Option (List Char)
  | 0, _ => none
  | fuel + 1, cs => do
    let (_, rest) ← inner (← dropLines? cs)
    match ← dropLines? rest with
    | ']' :: rest => some rest
    | ',' :: rest =>
      match ← dropLines? rest with
      | ']' :: rest => some rest
      | rest => dropItems inner fuel rest
    | _ => none

/-- Drops an array after its opening bracket. -/
def dropArray? (inner : ValueReader) (cs : List Char) : Option (List Char) := do
  match ← dropLines? cs with
  | ']' :: rest => some rest
  | rest => dropItems inner (rest.length + 1) rest

/-- Reads a key, the sign after it and a value: the way, the key and the value. -/
def assignment? (inner : ValueReader) (cs : List Char) :
    Option ((List String × String × Node) × List Char) := do
  let ((way, key), rest) ← key? cs
  match rest with
  | '=' :: rest =>
    let (n, rest) ← inner (dropBlanks rest)
    return ((way, key, n), rest)
  | _ => none

/-- Drops the assignments of a table between braces that has some, of no more than `fuel`, with its
brace. -/
def dropAssignments (inner : ValueReader) (es : Entries) :
    (fuel : Nat) → List Char → Option (List Char)
  | 0, _ => none
  | fuel + 1, cs => do
    let ((way, key, n), rest) ← assignment? inner cs
    let es ← es.assign way key n
    match dropBlanks rest with
    | '\x7d' :: rest => some rest
    | ',' :: rest => dropAssignments inner es fuel rest
    | _ => none

/-- Drops a table between braces after the opening one. -/
def dropInlineTable? (inner : ValueReader) (cs : List Char) : Option (List Char) :=
  match dropBlanks cs with
  | '\x7d' :: rest => some rest
  | _ => dropAssignments inner [] (cs.length + 1) cs

/-- Reads a value that holds others no deeper than so many levels. -/
def value? : (levels : Nat) → ValueReader
  | levels, cs =>
    match cs with
    | [] => none
    | c :: rest =>
      if c = '"' || c = '\'' then (dropString? cs).map (.leaf, ·)
      else if c = '[' then
        match levels with
        | 0 => none
        | levels + 1 => (dropArray? (value? levels) rest).map (.leaf, ·)
      else if c = '\x7b' then
        match levels with
        | 0 => none
        | levels + 1 => (dropInlineTable? (value? levels) rest).map (.leaf, ·)
      else if "true".toList.isPrefixOf cs then some (.leaf, cs.drop 4)
      else if "false".toList.isPrefixOf cs then some (.leaf, cs.drop 5)
      else (number? cs).map fun (n, rest) => (n.elim .leaf .integer, rest)

/-! ### Documents -/

/-- A document that is being read: its tables, and the way to the one that a header has opened. -/
structure State where
  root : Entries
  way : List String

/-- Assigns in the table that a header has opened. -/
def State.assign (s : State) (way : List String) (key : String) (n : Node) : Option State := do
  let root ← s.root.change false (fun _ es => es.assign way key n) false s.way
  return { s with root := root }

/-- Reads a header after its opening bracket. -/
def header? (s : State) (cs : List Char) : Option (State × List Char) :=
  match cs with
  | '[' :: cs => do
    let ((way, key), rest) ← key? cs
    match rest with
    | ']' :: ']' :: rest => return (⟨← s.root.openItem way key, way ++ [key]⟩, rest)
    | _ => none
  | cs => do
    let ((way, key), rest) ← key? cs
    match rest with
    | ']' :: rest => return (⟨← s.root.openTable way key, way ++ [key]⟩, rest)
    | _ => none

/-- Reads the lines of a document, of which there are no more than `fuel`. -/
def readLines : (fuel : Nat) → State → List Char → Option State
  | 0, _, _ => none
  | fuel + 1, s, cs =>
    match dropBlanks cs with
    | [] => some s
    | '[' :: cs => do
      let (s, rest) ← header? s cs
      readLines fuel s (← dropTrailing? rest)
    | c :: cs =>
      if c = '#' || c = '\n' || c = '\r' then do readLines fuel s (← dropTrailing? (c :: cs))
      else do
        let ((way, key, n), rest) ← assignment? (value? maxNesting) (c :: cs)
        readLines fuel (← s.assign way key n) (← dropTrailing? rest)

/-- The tables of a text. A byte order mark may stand before it. -/
def Entries.ofText? (s : String) : Option Entries :=
  let cs := match s.toList with
    | '\uFEFF' :: cs => cs
    | cs => cs
  (readLines (cs.length + 1) ⟨[], []⟩ cs).map State.root

end Toml

end RecordQuery
