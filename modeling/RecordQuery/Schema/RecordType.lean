import RecordQuery.Schema.Kind

/-!
# Record types

A record type has a name and fields. A field is read from a record under its own name, and queries
name it by its wire name, which may be another one. Record types refer to each other, and to
themselves, by their numbers in a schema.
-/

namespace RecordQuery

/-- A field of a record type. -/
structure Field where
  /-- The name under which records keep the field. -/
  name : String
  /-- The name by which queries know the field, if it is another one. -/
  rename : Option String
  kind : Kind
  deriving DecidableEq

/-- The name by which queries know a field. -/
def Field.wireName (f : Field) : String := f.rename.getD f.name

/-- A record type. -/
structure RecordType where
  name : String
  fields : List Field
  deriving DecidableEq

/-- Record types by their numbers, and the one that is queried. -/
structure Schema where
  types : List RecordType
  root : TypeRef
  deriving DecidableEq

/-- The record type of a reference. A number without a type refers to one with no fields. -/
def Schema.describe (s : Schema) (t : TypeRef) : RecordType := s.types[t.index]?.getD ⟨"", []⟩

end RecordQuery
