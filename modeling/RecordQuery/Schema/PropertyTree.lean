import RecordQuery.Error
import RecordQuery.Schema.RecordType
import RecordQuery.Text.Compare

/-!
# Property trees

The properties of a record, and those of the records in it, as a query sees them: by their wire
names in any letter case. A record type that refers to itself would give a tree without end. The
tree is therefore cut at a limit: it is no deeper than that, and no type is met more often on the
way down.

A tree is kept as the place it is seen from, the record type there and the types passed on the way,
and its branches are worked out when they are asked for.
-/

namespace RecordQuery

/-- The properties of a record type at the end of a way down from the root. -/
structure PropertyTree where
  schema : Schema
  type : TypeRef
  /-- The numbers of the record types passed on the way, the last one first. -/
  above : List Nat
  /-- The limit on depth and on repetition. -/
  limit : Nat

/-- A property in a tree. -/
structure Property where
  tree : PropertyTree
  field : Field

/-- The lower-case form of a field's wire name, which tells it from the others. -/
def Field.key (f : Field) : String := Text.lowercase f.wireName

/-- The fields that no later field has the key of. -/
def Field.lastOfKey : List Field → List Field
  | [] => []
  | f :: fs => if fs.any (·.key == f.key) then lastOfKey fs else f :: lastOfKey fs

namespace PropertyTree

/-- The tree of a record type of a schema. -/
def build (schema : Schema) (type : TypeRef) (limit : Nat) : Except QueryError PropertyTree :=
  if limit = 0 then .error (.invalidOptions .zeroDepth) else .ok ⟨schema, type, [], limit⟩

/-- The record type at a tree's root. -/
def record (t : PropertyTree) : RecordType := t.schema.describe t.type

/-- The fields that can be named, in the order of their keys. At the limit of depth there are
none. -/
def fields (t : PropertyTree) : List Field :=
  if t.limit ≤ t.above.length then []
  else (Field.lastOfKey t.record.fields).mergeSort fun f g => Text.compare f.key g.key != .gt

/-- The properties at a tree's root, in the order of their keys. -/
def properties (t : PropertyTree) : List Property := t.fields.map (⟨t, ·⟩)

/-- The wire names of the properties, in the order of their keys. -/
def wireNames (t : PropertyTree) : List String := t.fields.map Field.wireName

/-- The property that a name means. The empty name means none. -/
def get? (t : PropertyTree) (name : String) : Option Property :=
  if name.isEmpty then none
  else (t.fields.find? fun f => f.key == Text.lowercase name).map (⟨t, ·⟩)

end PropertyTree

namespace Property

/-- The name under which records keep the property. -/
def name (p : Property) : String := p.field.name

/-- The kind of the property. -/
def kind (p : Property) : Kind := p.field.kind

/-- The kind of the elements of a collection. -/
def element? (p : Property) : Option Kind := p.kind.element?

/-- Holds of a collection. -/
def isCollection (p : Property) : Bool := p.element?.isSome

/-- The record type that the property leads to, as a record or as a collection of records. -/
def target? (p : Property) : Option TypeRef := (p.element?.getD p.kind).record?

/-- The tree below a property: that of the record or of a collection's elements. There is none if
the record type has already been met as often as the limit allows. -/
def nested? (p : Property) : Option PropertyTree :=
  match p.target? with
  | none => none
  | some target =>
    let above := p.tree.type.index :: p.tree.above
    if p.tree.limit ≤ above.count target.index then none
    else some ⟨p.tree.schema, target, above, p.tree.limit⟩

end Property

end RecordQuery
