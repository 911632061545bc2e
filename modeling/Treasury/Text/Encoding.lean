/-!
# Encodings of texts

A text that comes as bytes is in UTF-8, UTF-16 or UTF-32. `Encoding.detect` tells which one from a
byte order mark or, without a mark, from the zeros among the first bytes, as they are in a text that
starts with characters of ASCII; `Encoding.decode?` reads the bytes. The main statements are that a
mark decides and that it is no part of the text.
-/

namespace Treasury.Text

/-- The character of a code point, and the replacement character for half of a surrogate pair. -/
def charOf (n : Nat) : Char :=
  if 0xd800 ≤ n && n ≤ 0xdfff then '\ufffd' else Char.ofNat n

/-- Whether a unit of 16 bits is the first half of a surrogate pair. -/
def isHighHalf (n : Nat) : Bool := 0xd800 ≤ n && n ≤ 0xdbff

/-- Whether a unit of 16 bits is the second half of a surrogate pair. -/
def isLowHalf (n : Nat) : Bool := 0xdc00 ≤ n && n ≤ 0xdfff

/-- The character of a surrogate pair. -/
def charOfHalves (high low : Nat) : Char :=
  Char.ofNat (0x10000 + (high - 0xd800) * 0x400 + (low - 0xdc00))

/-- The characters of units of 16 bits. -/
def charsOfUnits : List Nat → List Char
  | high :: low :: rest =>
    if isHighHalf high && isLowHalf low then charOfHalves high low :: charsOfUnits rest
    else charOf high :: charsOfUnits (low :: rest)
  | [n] => [charOf n]
  | [] => []

/-- An encoding, in which the more significant byte of a unit may come first. -/
inductive Encoding where
  /-- UTF-8. -/
  | utf8
  /-- UTF-16. -/
  | utf16 (highFirst : Bool)
  /-- UTF-32. -/
  | utf32 (highFirst : Bool)
  deriving DecidableEq, Repr

namespace Encoding

/-- The encoding of a text without a mark. Where a character of ASCII has zeros beside it, its unit
has more than one byte. -/
def ofZeros : List UInt8 → Encoding
  | 0 :: b :: _ :: _ :: _ => if b = 0 then .utf32 true else .utf16 true
  | _ :: 0 :: c :: d :: _ => if c = 0 && d = 0 then .utf32 false else .utf16 false
  | [0, _] => .utf16 true
  | [_, 0] => .utf16 false
  | _ => .utf8

/-- The encoding of a text, and its bytes without the mark. -/
def detect : List UInt8 → Encoding × List UInt8
  | 0x00 :: 0x00 :: 0xfe :: 0xff :: rest => (.utf32 true, rest)
  | 0xff :: 0xfe :: 0x00 :: 0x00 :: rest => (.utf32 false, rest)
  | 0xfe :: 0xff :: rest => (.utf16 true, rest)
  | 0xff :: 0xfe :: rest => (.utf16 false, rest)
  | 0xef :: 0xbb :: 0xbf :: rest => (.utf8, rest)
  | bytes => (ofZeros bytes, bytes)

/-- The units of two bytes each, if no byte is left over. -/
def pairs? (highFirst : Bool) : List UInt8 → Option (List Nat)
  | a :: b :: rest =>
    let n := if highFirst then a.toNat * 256 + b.toNat else b.toNat * 256 + a.toNat
    (pairs? highFirst rest).map (n :: ·)
  | [_] => none
  | [] => some []

/-- The pairs of units as larger units, if no unit is left over. -/
def joined? (highFirst : Bool) : List Nat → Option (List Nat)
  | a :: b :: rest =>
    let n := if highFirst then a * 65536 + b else b * 65536 + a
    (joined? highFirst rest).map (n :: ·)
  | [_] => none
  | [] => some []

/-- The characters of bytes. Half of a surrogate pair is read as the replacement character. -/
def decode? : Encoding → List UInt8 → Option (List Char)
  | .utf8, bytes => (String.fromUTF8? ⟨bytes.toArray⟩).map String.toList
  | .utf16 highFirst, bytes => (pairs? highFirst bytes).map charsOfUnits
  | .utf32 highFirst, bytes => do
    let points ← joined? highFirst (← pairs? highFirst bytes)
    if points.all (· < 0x110000) then some (points.map charOf) else none

/-- The mark of UTF-8 is no part of the text. -/
theorem detect_utf8_mark (bytes : List UInt8) :
    detect (0xef :: 0xbb :: 0xbf :: bytes) = (.utf8, bytes) := rfl

/-- A text of two characters of ASCII or more without a zero is in UTF-8. -/
theorem ofZeros_of_ne_zero {a b : UInt8} (ha : a ≠ 0) (hb : b ≠ 0) (bytes : List UInt8) :
    ofZeros (a :: b :: bytes) = .utf8 := by
  unfold ofZeros
  split <;> simp_all

end Encoding

/-- The text of bytes in the encoding that they show. -/
def ofBytes? (bytes : ByteArray) : Option String :=
  let found := Encoding.detect bytes.toList
  (found.1.decode? found.2).map String.ofList

end Treasury.Text
