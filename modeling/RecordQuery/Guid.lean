import RecordQuery.Number.Hex

/-!
# Guids

A guid is a number of 128 bits, written in base sixteen. Its plain form has 32 digits. In the usual
form hyphens divide them into groups, and this form may stand between braces or after the name of
the guid name space.
-/

namespace RecordQuery

/-- A number of 128 bits that names a thing. -/
structure Guid where
  bits : BitVec 128
  deriving DecidableEq

namespace Guid

/-- The sizes of the groups between the hyphens. -/
def groups : List Nat := [8, 4, 4, 4, 12]

/-- The digits of the plain form: those of a text with 32 characters. -/
def plain? (cs : List Char) : Option (List Char) :=
  if cs.length = 32 then some cs else none

/-- The digits of groups of the given sizes with hyphens between them. -/
def ungroup? : List Nat → List Char → Option (List Char)
  | [], cs => if cs.isEmpty then some [] else none
  | [n], cs => if cs.length = n then some cs else none
  | n :: ns, cs =>
    match cs.drop n with
    | '-' :: rest => (ungroup? ns rest).map (cs.take n ++ ·)
    | _ => none

/-- The grouped form within a text: the text itself, what stands between braces, or what follows
the name of the guid name space in any letter case. -/
def unwrap (cs : List Char) : List Char :=
  let scheme := "urn:uuid:".toList
  if (cs.take scheme.length).map Char.toLower = scheme then cs.drop scheme.length
  else match cs with
    | '\x7b' :: rest => if rest.getLast? = some '\x7d' then rest.dropLast else cs
    | _ => cs

/-- The guid of a text in any of its forms; digits above nine may be of either case. -/
def ofText? (cs : List Char) : Option Guid := do
  let digits ← plain? cs <|> ungroup? groups (unwrap cs)
  return ⟨BitVec.ofNat 128 (← Number.ofHex? digits)⟩

/-- Groups of the given sizes with hyphens between them. -/
def group : List Nat → List Char → List Char
  | [], cs => cs
  | [_], cs => cs
  | n :: ns, cs => cs.take n ++ '-' :: group ns (cs.drop n)

/-- The grouped form, with small letters. -/
def text (g : Guid) : String :=
  String.ofList (group groups (Number.hexPadded 32 g.bits.toNat))

/-- The order of guids as numbers. -/
def compare (g h : Guid) : Ordering := Ord.compare g.bits.toNat h.bits.toNat

end Guid

end RecordQuery
