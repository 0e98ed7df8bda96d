/-!
# Bytes of texts

Texts are written as bytes in UTF-8. Bytes that are no text are read all the same where a reader may
not refuse them: each longest beginning of a character that breaks off, and each byte that begins
none, is read as the replacement character.
-/

namespace RecordQuery

namespace Utf8

/-- The bytes of characters. -/
def encode (cs : List Char) : List UInt8 := cs.flatMap String.utf8EncodeChar

/-- What the first byte of a character says: how many bytes follow, the bits it gives, and the
bounds of the second byte, which are narrower where some encodings would be too long or out of
range. -/
structure Lead where
  more : Nat
  bits : Nat
  least : UInt8 := 0x80
  greatest : UInt8 := 0xBF

/-- Reads the first byte of a character. -/
def lead? (b : UInt8) : Option Lead :=
  if b < 0x80 then some { more := 0, bits := b.toNat }
  else if b < 0xC2 then none
  else if b < 0xE0 then some { more := 1, bits := b.toNat - 0xC0 }
  else if b = 0xE0 then some { more := 2, bits := 0, least := 0xA0 }
  else if b = 0xED then some { more := 2, bits := 0xD, greatest := 0x9F }
  else if b < 0xF0 then some { more := 2, bits := b.toNat - 0xE0 }
  else if b = 0xF0 then some { more := 3, bits := 0, least := 0x90 }
  else if b = 0xF4 then some { more := 3, bits := 4, greatest := 0x8F }
  else if b < 0xF4 then some { more := 3, bits := b.toNat - 0xF0 }
  else none

/-- Reads the bytes after the first, the next one within bounds: the code point if the character is
whole, and how many bytes belong to it. -/
def follow (more bits : Nat) (least greatest : UInt8) (bytes : List UInt8) : Option Nat × Nat :=
  match more, bytes with
  | 0, _ => (some bits, 0)
  | more + 1, b :: bytes =>
    if least ≤ b && b ≤ greatest then
      let (code, used) := follow more (64 * bits + (b.toNat - 0x80)) 0x80 0xBF bytes
      (code, used + 1)
    else (none, 0)
  | _ + 1, [] => (none, 0)

/-- The replacement character. -/
def replacement : Char := '\uFFFD'

/-- The character at the front of some bytes, if they have one, and how many bytes after the first
belong to it or to its beginning. -/
def front (b : UInt8) (bytes : List UInt8) : Option Char × Nat :=
  match lead? b with
  | none => (none, 0)
  | some l =>
    let (code, used) := follow l.more l.bits l.least l.greatest bytes
    (code.map Char.ofNat, used)

/-- The characters of bytes, with the replacement character for what is none. -/
def decodeLossy (bytes : List UInt8) : List Char :=
  match bytes with
  | [] => []
  | b :: bytes =>
    let (c, used) := front b bytes
    c.getD replacement :: decodeLossy (bytes.drop used)
termination_by bytes.length
decreasing_by
  simp only [List.length_drop, List.length_cons]
  omega

/-- The characters of bytes, if they are a text. -/
def decode? (bytes : List UInt8) : Option (List Char) :=
  match bytes with
  | [] => some []
  | b :: bytes =>
    match front b bytes with
    | (some c, used) => (decode? (bytes.drop used)).map (c :: ·)
    | (none, _) => none
termination_by bytes.length
decreasing_by
  simp only [List.length_drop, List.length_cons]
  omega

end Utf8

end RecordQuery
