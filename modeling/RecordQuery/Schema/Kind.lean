import RecordQuery.Number.Power

/-!
# Kinds of fields

What a field of a record holds: a plain value, nothing or something, another record, something
opaque, or a collection.
-/

namespace RecordQuery

/-- The width and sign of an integer field. -/
inductive IntegerKind where
  | i8
  | i16
  | i32
  | i64
  | u8
  | u16
  | u32
  | u64
  deriving DecidableEq

namespace IntegerKind

/-- The name of an integer kind. -/
def text : IntegerKind → String
  | i8 => "i8"
  | i16 => "i16"
  | i32 => "i32"
  | i64 => "i64"
  | u8 => "u8"
  | u16 => "u16"
  | u32 => "u32"
  | u64 => "u64"

/-- The width of an integer kind in bits. -/
def width : IntegerKind → Nat
  | i8 | u8 => 8
  | i16 | u16 => 16
  | i32 | u32 => 32
  | i64 | u64 => 64

/-- Holds of the kinds with integers below zero. -/
def isSigned : IntegerKind → Bool
  | i8 | i16 | i32 | i64 => true
  | u8 | u16 | u32 | u64 => false

/-- The least integer of a kind. -/
def least (k : IntegerKind) : Int := if k.isSigned then -Number.twoTo (k.width - 1) else 0

/-- The greatest integer of a kind. -/
def greatest (k : IntegerKind) : Int :=
  if k.isSigned then Number.twoTo (k.width - 1) - 1 else Number.twoTo k.width - 1

/-- Holds of the integers of a kind. -/
def has (k : IntegerKind) (n : Int) : Bool := k.least ≤ n && n ≤ k.greatest

end IntegerKind

/-- The kind of a plain value. -/
inductive Scalar where
  | bool
  | integer (kind : IntegerKind)
  | single
  | double
  | decimal
  | string
  | guid
  | instant
  | date
  /-- One of some named variants. -/
  | enum (variants : List String)
  deriving DecidableEq

namespace Scalar

/-- The name of a scalar. -/
def text : Scalar → String
  | bool => "bool"
  | integer kind => kind.text
  | single => "f32"
  | double => "f64"
  | decimal => "decimal"
  | string => "string"
  | guid => "guid"
  | instant => "datetime"
  | date => "date"
  | enum _ => "enum"

/-- Holds of the integer kinds. -/
def isInteger : Scalar → Bool
  | integer _ => true
  | _ => false

end Scalar

/-- A reference to a record type: the name it is shown by, and its number in the schema. -/
structure TypeRef where
  name : String
  index : Nat
  deriving DecidableEq

/-- What a field holds. -/
inductive Kind where
  | scalar (s : Scalar)
  /-- Something of the kind, or nothing. -/
  | optional (inner : Kind)
  /-- Another record. -/
  | record (type : TypeRef)
  /-- Something opaque, known by name only. -/
  | abstract (name : String)
  /-- Any number of elements of the kind. -/
  | collection (element : Kind)
  deriving DecidableEq

namespace Kind

/-- The text of a kind. -/
def text : Kind → String
  | scalar s => s.text
  | optional k => k.text ++ "?"
  | record t => t.name
  | abstract name => name
  | collection k => "[" ++ k.text ++ "]"

/-- Holds of a kind that allows for nothing. -/
def isNullable : Kind → Bool
  | optional _ => true
  | _ => false

/-- The kind of what is there if something is. -/
def present : Kind → Kind
  | optional k => k.present
  | k => k

/-- The scalar of a plain value that may be missing. -/
def scalar? (k : Kind) : Option Scalar :=
  match k.present with
  | scalar s => some s
  | _ => none

/-- The kind of the elements of a collection that may be missing. -/
def element? (k : Kind) : Option Kind :=
  match k.present with
  | collection e => some e
  | _ => none

/-- The type of a record that may be missing. -/
def record? (k : Kind) : Option TypeRef :=
  match k.present with
  | record t => some t
  | _ => none

/-- Holds of a plain value that may be missing. -/
def isPrimitive (k : Kind) : Bool := k.scalar?.isSome

end Kind

end RecordQuery
