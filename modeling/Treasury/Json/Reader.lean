import Treasury.Json.Value
import Treasury.Text.Encoding
import Treasury.Text.Numeral

/-!
# Reading JSON text

`Json.read` reads a whole text as one value or says what is wrong and where. Besides the JSON
grammar it takes the names `NaN`, `Infinity` and `-Infinity` for the doubles they stand for. Where
an object repeats a name, the last value counts and the first place is kept.

The reader works on the characters that are left together with the position of the first of them.
-/

namespace Treasury.Json

open Numeric (Binary64)
open Text (charOf charOfHalves digitLimit isHighHalf isLowHalf numberOfDigits)

/-- What is wrong with a text that is not JSON. -/
inductive Fault where
  /-- A value has to start here. -/
  | expectedValue
  /-- A quoted member name has to start here. -/
  | expectedName
  /-- A colon has to stand here. -/
  | expectedColon
  /-- A comma, or the end of the list or object, has to stand here. -/
  | expectedComma
  /-- The text goes on after its value. -/
  | extraData
  /-- A string is not closed. -/
  | unterminated
  /-- A string holds a control character. -/
  | controlCharacter
  /-- A backslash is followed by a character that it cannot escape. -/
  | badEscape
  /-- An escape by code point lacks its four hexadecimal digits. -/
  | badCodePoint
  /-- The text starts with a byte order mark. -/
  | byteOrderMark
  deriving DecidableEq, Repr

/-- The words for a fault. -/
def Fault.message : Fault → String
  | .expectedValue => "Expecting value"
  | .expectedName => "Expecting property name enclosed in double quotes"
  | .expectedColon => "Expecting ':' delimiter"
  | .expectedComma => "Expecting ',' delimiter"
  | .extraData => "Extra data"
  | .unterminated => "Unterminated string starting at"
  | .controlCharacter => "Invalid control character at"
  | .badEscape => "Invalid \\escape"
  | .badCodePoint => "Invalid \\uXXXX escape"
  | .byteOrderMark => "Unexpected UTF-8 BOM (decode using utf-8-sig)"

/-- Why a text is not read. -/
inductive ReadError where
  /-- The text is not JSON, by a fault at a position. -/
  | misread (fault : Fault) (position : Nat)
  /-- A whole number has too many digits. -/
  | tooLong (digits : Nat)
  /-- Lists and objects are nested too deep. -/
  | tooDeep
  deriving DecidableEq, Repr

/-- How deep lists and objects may be nested. -/
def nestingLimit : Nat := 987

/-- A value that was read, with what follows it. -/
structure Cursor (α : Type) where
  /-- The value. -/
  value : α
  /-- The characters after it. -/
  rest : List Char
  /-- The position of the first of them. -/
  position : Nat

/-- A fault as the result of reading. -/
def fail (fault : Fault) (position : Nat) : Except ReadError α := .error (.misread fault position)

/-- The blanks between the parts of a JSON text. -/
def isGap (c : Char) : Bool := c = ' ' || c = '\t' || c = '\n' || c = '\r'

/-- Skips the blanks at the start of a text. -/
def skipGap : List Char → Nat → List Char × Nat
  | c :: rest, pos => if isGap c then skipGap rest (pos + 1) else (c :: rest, pos)
  | [], pos => ([], pos)

/-- The value of a hexadecimal digit. -/
def hexValue? (c : Char) : Option Nat :=
  if c.isDigit then some (c.toNat - '0'.toNat)
  else if 'a' ≤ c && c ≤ 'f' then some (c.toNat - 'a'.toNat + 10)
  else if 'A' ≤ c && c ≤ 'F' then some (c.toNat - 'A'.toNat + 10)
  else none

/-- The number written by hexadecimal digits. -/
def hexNumber? (digits : List Char) : Option Nat :=
  digits.foldlM (fun n c => (hexValue? c).map (16 * n + ·)) 0

/-- The character that a backslash and a letter stand for. -/
def escape? : Char → Option Char
  | '"' => some '"'
  | '\\' => some '\\'
  | '/' => some '/'
  | 'b' => some '\x08'
  | 'f' => some '\x0c'
  | 'n' => some '\n'
  | 'r' => some '\r'
  | 't' => some '\t'
  | _ => none

/-- Reads the characters of a string up to its closing quote. `start` is the position of the opening
quote, and `seen` the characters so far, last first. -/
def readString (start : Nat) (seen : List Char) :
    List Char → Nat → Except ReadError (Cursor String)
  | [], _ => fail .unterminated start
  | '"' :: rest, pos => .ok ⟨.ofList seen.reverse, rest, pos + 1⟩
  | ['\\'], _ => fail .unterminated start
  | '\\' :: 'u' :: a :: b :: c :: d :: x :: rest, pos =>
    match hexNumber? [a, b, c, d] with
    | none => fail .badCodePoint (pos + 1)
    | some high =>
      match x, rest with
      | '\\', 'u' :: e :: f :: g :: h :: y :: more =>
        if isHighHalf high then
          match hexNumber? [e, f, g, h] with
          | none => fail .badCodePoint (pos + 7)
          | some low =>
            -- Two escapes in a row stand for one character if they are a surrogate pair.
            if isLowHalf low then
              readString start (charOfHalves high low :: seen) (y :: more) (pos + 12)
            else
              readString start (charOf high :: seen) ('\\' :: 'u' :: e :: f :: g :: h :: y :: more)
                (pos + 6)
        else
          readString start (charOf high :: seen) ('\\' :: 'u' :: e :: f :: g :: h :: y :: more)
            (pos + 6)
      | x, rest => readString start (charOf high :: seen) (x :: rest) (pos + 6)
  | '\\' :: 'u' :: _, pos => fail .badCodePoint (pos + 1)
  | '\\' :: c :: rest, pos =>
    match escape? c with
    | some e => readString start (e :: seen) rest (pos + 2)
    | none => fail .badEscape pos
  | c :: rest, pos =>
    if c.val < 0x20 then fail .controlCharacter pos
    else readString start (c :: seen) rest (pos + 1)
  termination_by cs => cs.length

/-- The parts of a number: its whole part, its fraction and its exponent, the last two if they are
there, and the characters after it. -/
def splitNumber (cs : List Char) :
    List Char × Option (List Char) × Option (List Char) × List Char :=
  let whole := match cs with
    | '0' :: _ => ['0']
    | _ => cs.takeWhile Char.isDigit
  let rest := cs.drop whole.length
  let (fraction, rest) := match rest with
    | '.' :: more =>
      -- A point without digits is what follows the number, not a part of it.
      let digits := more.takeWhile Char.isDigit
      if digits.isEmpty then (none, rest) else (some digits, more.drop digits.length)
    | _ => (none, rest)
  match rest with
  | e :: more =>
    if e = 'e' || e = 'E' then
      let sign := more.takeWhile (fun c => c = '+' || c = '-') |>.take 1
      let digits := (more.drop sign.length).takeWhile Char.isDigit
      if digits.isEmpty then (whole, fraction, none, rest)
      else (whole, fraction, some (sign ++ digits), more.drop (sign.length + digits.length))
    else (whole, fraction, none, rest)
  | [] => (whole, fraction, none, rest)

/-- The exponent written by an optional sign and digits. -/
def exponentValue : List Char → Int
  | '-' :: digits => -numberOfDigits digits
  | '+' :: digits => numberOfDigits digits
  | digits => numberOfDigits digits

/-- Reads a number whose sign, if any, has been taken off. `start` is where the number starts. -/
def readNumber (negative : Bool) (start : Nat) (cs : List Char) (pos : Nat) :
    Except ReadError (Cursor Json) :=
  let (whole, fraction, exponent, rest) := splitNumber cs
  let width (part : Option (List Char)) : Nat := part.elim 0 (·.length + 1)
  let stop := pos + whole.length + width fraction + width exponent
  if whole.isEmpty then fail .expectedValue start
  else if fraction.isNone && exponent.isNone then
    if whole.length > digitLimit then .error (.tooLong whole.length)
    else
      let size : Int := numberOfDigits whole
      .ok ⟨.int (if negative then -size else size), rest, stop⟩
  else
    let places := fraction.getD []
    let power := exponentValue (exponent.getD []) - places.length
    .ok ⟨.float (.ofDecimal negative (numberOfDigits (whole ++ places)) power), rest, stop⟩

/-- Reads a value that is a single word or a number. -/
def readScalar (cs : List Char) (pos : Nat) : Except ReadError (Cursor Json) :=
  match cs with
  | 'n' :: 'u' :: 'l' :: 'l' :: rest => .ok ⟨.null, rest, pos + 4⟩
  | 't' :: 'r' :: 'u' :: 'e' :: rest => .ok ⟨.bool true, rest, pos + 4⟩
  | 'f' :: 'a' :: 'l' :: 's' :: 'e' :: rest => .ok ⟨.bool false, rest, pos + 5⟩
  | 'N' :: 'a' :: 'N' :: rest => .ok ⟨.float .nan, rest, pos + 3⟩
  | 'I' :: 'n' :: 'f' :: 'i' :: 'n' :: 'i' :: 't' :: 'y' :: rest =>
    .ok ⟨.float (.infinite false), rest, pos + 8⟩
  | '-' :: 'I' :: 'n' :: 'f' :: 'i' :: 'n' :: 'i' :: 't' :: 'y' :: rest =>
    .ok ⟨.float (.infinite true), rest, pos + 9⟩
  | '-' :: rest => readNumber true pos rest (pos + 1)
  | _ => readNumber false pos cs pos

mutual

/-- Reads a value in which lists and objects are nested up to a depth. Every call of the three
readers spends one unit of `fuel`, of which two for each character are enough. -/
def readValue (fuel depth : Nat) (cs : List Char) (pos : Nat) : Except ReadError (Cursor Json) :=
  match fuel with
  | 0 => fail .expectedValue pos
  | fuel + 1 =>
    match cs, depth with
    | '"' :: rest, _ => do
      let text ← readString pos [] rest (pos + 1)
      return ⟨.str text.value, text.rest, text.position⟩
    | '[' :: _, 0 | '\x7b' :: _, 0 => .error .tooDeep
    | '[' :: rest, depth + 1 =>
      let (rest, pos) := skipGap rest (pos + 1)
      match rest with
      | ']' :: rest => .ok ⟨.arr [], rest, pos + 1⟩
      | _ => readItems fuel depth [] rest pos
    | '\x7b' :: rest, depth + 1 =>
      let (rest, pos) := skipGap rest (pos + 1)
      match rest with
      | '\x7d' :: rest => .ok ⟨.obj [], rest, pos + 1⟩
      | _ => readMembers fuel depth [] rest pos
    | _, _ => readScalar cs pos

/-- Reads the items of a list from the next one on, after those `seen`, which are held last
first. -/
def readItems (fuel depth : Nat) (seen : List Json) (cs : List Char) (pos : Nat) :
    Except ReadError (Cursor Json) :=
  match fuel with
  | 0 => fail .expectedValue pos
  | fuel + 1 => do
    let item ← readValue fuel depth cs pos
    let (rest, pos) := skipGap item.rest item.position
    match rest with
    | ']' :: rest => .ok ⟨.arr (item.value :: seen).reverse, rest, pos + 1⟩
    | ',' :: rest =>
      let (rest, pos) := skipGap rest (pos + 1)
      readItems fuel depth (item.value :: seen) rest pos
    | _ => fail .expectedComma pos

/-- Reads the members of an object from the next one on, after those `seen`. -/
def readMembers (fuel depth : Nat) (seen : List (String × Json)) (cs : List Char) (pos : Nat) :
    Except ReadError (Cursor Json) :=
  match fuel with
  | 0 => fail .expectedName pos
  | fuel + 1 =>
    match cs with
    | '"' :: rest => do
      let name ← readString pos [] rest (pos + 1)
      let (rest, pos) := skipGap name.rest name.position
      match rest with
      | ':' :: rest =>
        let (rest, pos) := skipGap rest (pos + 1)
        let member ← readValue fuel depth rest pos
        let seen := put name.value member.value seen
        let (rest, pos) := skipGap member.rest member.position
        match rest with
        | '\x7d' :: rest => .ok ⟨.obj seen, rest, pos + 1⟩
        | ',' :: rest =>
          let (rest, pos) := skipGap rest (pos + 1)
          readMembers fuel depth seen rest pos
        | _ => fail .expectedComma pos
      | _ => fail .expectedColon pos
    | _ => fail .expectedName pos

end

/-- Reads a whole text as one value. -/
def read (text : String) : Except ReadError Json :=
  let cs := text.toList
  if cs.head? = some '\ufeff' then .error (.misread .byteOrderMark 0)
  else do
    let (rest, pos) := skipGap cs 0
    let value ← readValue (2 * cs.length + 2) nestingLimit rest pos
    let (rest, pos) := skipGap value.rest value.position
    if rest.isEmpty then .ok value.value else .error (.misread .extraData pos)

/-- The line of a position, counted from one, and its place in the line, counted from one. -/
def lineAndColumn (text : String) (position : Nat) : Nat × Nat :=
  let before := text.toList.take position
  (before.count '\n' + 1, (before.reverse.takeWhile (· ≠ '\n')).length + 1)

/-- The words for a text that was not read. -/
def ReadError.message (text : String) : ReadError → String
  | .misread fault position =>
    let (line, column) := lineAndColumn text position
    s!"{fault.message}: line {line} column {column} (char {position})"
  | .tooLong digits => Text.NumeralError.message (.tooLong digits)
  | .tooDeep => "The text is nested too deep"

end Treasury.Json
