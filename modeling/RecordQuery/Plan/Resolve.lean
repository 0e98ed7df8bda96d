import RecordQuery.Plan
import RecordQuery.Schema.PropertyTree
import RecordQuery.Schema.Suggestion

/-!
# Names in a filter

A path is resolved by walking down a property tree. Where a path leads through records that may be
missing, each of them is noted as a guard, to be tested before the field at the end is read.

Inside a quantified condition a name can mean three things. A path that starts with the variable of
an enclosing condition leads on from its element, and the innermost variable of that name counts. A
name alone is a property of the innermost element. Every other path starts at the record.
-/

namespace RecordQuery

/-- What a path in a query means. -/
structure Resolved where
  accessor : Accessor
  /-- The records on the way, the first one first. -/
  guards : List Accessor
  kind : Kind
  /-- The path as written. -/
  name : String

/-- Walks down a tree along at least one name, from the end of the fields already passed. -/
def PropertyTree.walkFrom (t : PropertyTree) (slot : Nat) (passed : List String)
    (written first : String) : (rest : List String) → Except QueryError Resolved
  | [] =>
    match t.get? first with
    | none => .error (.unknownAmong first t.wireNames)
    | some p => .ok ⟨⟨slot, passed ++ [p.name]⟩, [], p.kind, written⟩
  | next :: rest =>
    match t.get? first with
    | none => .error (.unknownAmong first t.wireNames)
    | some p =>
      if p.isCollection then .error (.collectionComparison first)
      else match p.nested? with
        | none => .error (.notNavigable first)
        | some below => do
          let r ← below.walkFrom slot (passed ++ [p.name]) written next rest
          return ⟨r.accessor, ⟨slot, passed ++ [p.name]⟩ :: r.guards, r.kind, r.name⟩

/-- Walks down a tree along a path. -/
def PropertyTree.walk (t : PropertyTree) (slot : Nat) (p : Path) (written : String) :
    Except QueryError Resolved :=
  t.walkFrom slot [] written p.first p.rest

/-- A variable of an enclosing quantified condition. -/
structure Scope where
  parameter : String
  slot : Nat
  element : Kind
  /-- The properties of the elements, if they are records. -/
  tree : Option PropertyTree

/-- Where a name stands: the properties of the record, and the enclosing variables, the innermost
one first. -/
structure Context where
  root : PropertyTree
  scopes : List Scope

namespace Context

/-- The innermost variable of a name. -/
def scope? (c : Context) (name : String) : Option Scope :=
  c.scopes.find? fun s => s.parameter == name

/-- The context inside one more quantified condition. -/
def push (c : Context) (parameter : String) (element : Kind) (tree : Option PropertyTree) :
    Context :=
  ⟨c.root, ⟨parameter, c.scopes.length + 1, element, tree⟩ :: c.scopes⟩

/-- What a path that starts with a variable means. -/
def resolveVariable (s : Scope) (p : Path) : Except QueryError Resolved :=
  match p.rest with
  | [] =>
    if s.element.isPrimitive then .ok ⟨⟨s.slot, []⟩, [], s.element, p.text⟩
    else .error (.nonPrimitiveLambdaParameter s.parameter)
  | next :: rest =>
    match s.tree with
    | none => .error (.notNavigable p.first)
    | some t => t.walk s.slot ⟨next, rest⟩ p.text

/-- What a path means. -/
def resolve (c : Context) (p : Path) : Except QueryError Resolved :=
  match c.scope? p.first with
  | some s => resolveVariable s p
  | none =>
    match p.rest, c.scopes with
    | [], s :: _ =>
      match s.tree with
      | some t => t.walk s.slot p p.text
      | none => .error (.unknownAmong p.first [])
    | _, _ => c.root.walk 0 p p.text

end Context

end RecordQuery
