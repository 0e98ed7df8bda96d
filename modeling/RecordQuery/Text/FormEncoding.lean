import RecordQuery.Number.Hex
import RecordQuery.Text.Utf8

/-!
# Query strings of web addresses

Names and values with `=` between them, and the pairs with `&` between them. In names and values a
blank is written as `+`, and every byte but those of letters, digits and four marks is written as a
percent sign and two digits in base sixteen. Reading refuses nothing: what does not fit this form
stands for itself.
-/

namespace RecordQuery

namespace FormEncoding

/-! ### Names and values -/

/-- Holds of the characters that stand for themselves. -/
def isPlain (c : Char) : Bool := c.isAlphanum || c = '*' || c = '-' || c = '.' || c = '_'

/-- A digit in base sixteen, with capital letters. -/
def hexDigit (n : Nat) : Char := (Nat.digitChar n).toUpper

/-- A byte as it is written. -/
def encodeByte (b : UInt8) : List Char :=
  let c := Char.ofNat b.toNat
  if isPlain c then [c]
  else if c = ' ' then ['+']
  else ['%', hexDigit (b.toNat / 16), hexDigit (b.toNat % 16)]

/-- A name or a value as it is written. -/
def encode (s : String) : List Char := (Utf8.encode s.toList).flatMap encodeByte

/-- The bytes that a name or a value stands for. A percent sign without two digits behind it stands
for itself. -/
def decodeBytes : List Char → List UInt8
  | [] => []
  | '%' :: high :: low :: cs =>
    match Number.hexValue? high, Number.hexValue? low with
    | some h, some l => UInt8.ofNat (16 * h + l) :: decodeBytes cs
    | _, _ => '%'.toUInt8 :: decodeBytes (high :: low :: cs)
  | '+' :: cs => ' '.toUInt8 :: decodeBytes cs
  | c :: cs => String.utf8EncodeChar c ++ decodeBytes cs

/-- The text that a name or a value stands for. -/
def decode (cs : List Char) : String := String.ofList (Utf8.decodeLossy (decodeBytes cs))

/-! ### Pairs -/

/-- Name and value of a pair; a pair without `=` has the empty value. -/
def pair (cs : List Char) : String × String :=
  (decode (cs.takeWhile (· != '=')), decode ((cs.dropWhile (· != '=')).drop 1))

/-- The pairs of a query string. A question mark may stand before it. -/
def pairs (s : String) : List (String × String) :=
  let cs := match s.toList with
    | '?' :: cs => cs
    | cs => cs
  ((cs.splitOn '&').filter (!·.isEmpty)).map pair

/-- The query string of some pairs. -/
def ofPairs (ps : List (String × String)) : String :=
  let written := ps.map fun (name, value) => encode name ++ '=' :: encode value
  String.ofList (['&'].intercalate written)

end FormEncoding

end RecordQuery
