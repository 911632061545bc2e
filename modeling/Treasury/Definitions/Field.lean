import Treasury.Definitions.Problem
import Treasury.Text.Numeral
import Treasury.Vocabulary

/-!
# Reading the fields of a document

The rules by which a value of a document is taken as a whole number, a number, a text, a word of a
vocabulary, a list or an object. Numbers are taken leniently: a truth value counts as one or zero, a
text may hold a numeral, and a double without fraction counts as a whole number.

The rules are those of pydantic 2 in its lax mode. They are documented there under "Conversion
Table", which says which JSON values become an `int`, a `float`, a `str` or a member of an
enumeration, and under "Validation Errors", whose codes and messages are those of `Complaint`.
-/

namespace Treasury.Field

open Numeric (Binary64)

/-- What a numeral without a sign becomes when leading zeros are taken off. The last zero stays
where nothing else would, or a point follows. Underscores among the zeros go with them, and a minus
sign may follow them. -/
def dropZeros : List Char → Option (List Char)
  | '0' :: rest =>
    let zeros := rest.takeWhile (fun c => c = '0' || c = '_')
    let last := (('0' :: zeros).getLast?).toList
    match rest.drop zeros.length with
    | [] => some last
    | '.' :: more => some (last ++ '.' :: more)
    | c :: more => if c.isDigit || c = '-' then some (c :: more) else none
  | c :: rest => if c.isDigit then some (c :: rest) else none
  | [] => none

/-- A numeral without a fraction of zeros. A point that ends the numeral stays. -/
def dropFraction (cs : List Char) : List Char :=
  let whole := cs.takeWhile (· ≠ '.')
  let zeros := cs.drop (whole.length + 1)
  if !zeros.isEmpty && zeros.all (· = '0') then whole else cs

/-- Whether a text holds an underscore, none at an end and no two in a row. -/
def hasSingleUnderscores (cs : List Char) : Bool :=
  let adjacent := (cs.zip cs.tail).any fun (c, d) => c = '_' && d = '_'
  cs.contains '_' && cs.head? ≠ some '_' && cs.getLast? ≠ some '_' && !adjacent

/-- The text without underscores, if they may be taken out. -/
def dropUnderscores (cs : List Char) : List Char :=
  if hasSingleUnderscores cs then cs.filter (· ≠ '_') else cs

/-- The minus sign at the start of a numeral, if there is one, and what follows it. -/
def minusAndRest : List Char → Bool × List Char
  | '-' :: rest => (true, rest)
  | cs => (false, cs)

/-- Whether a text starts as a number with more digits than a number may have, whatever follows. -/
def startsTooLong (cs : List Char) : Bool :=
  let digits := (minusAndRest cs).2.takeWhile Char.isDigit
  digits.head? ≠ some '0' && digits.length > Text.digitLimit

/-- The whole number written by digits, not too many, with an optional minus sign and no leading
zero. -/
def plainInt? (cs : List Char) : Option Int :=
  let (negative, digits) := minusAndRest cs
  let size : Int := Text.numberOfDigits digits
  if digits.isEmpty || !digits.all Char.isDigit || digits.length > Text.digitLimit then none
  else if digits.length > 1 && digits.head? = some '0' then none
  else some (if negative then -size else size)

/-- The whole number that a text of a document holds. Only a text that needs no tidying up is found
to be too large; any other one is then no numeral. -/
def intOfText (s : String) : Except Complaint Int :=
  if startsTooLong s.toList then .error .tooLarge
  else
    let (minus, rest) := Text.signAndRest (Text.trim Text.isSpace s.toList)
    let tidy := (dropZeros rest).map fun cs =>
      let cs := dropUnderscores (dropFraction cs)
      if minus then '-' :: cs else cs
    match tidy.bind plainInt? with
    | some n => .ok n
    | none => .error .notIntText

/-- The whole number that a double stands for, within 64 bits. -/
def intOfDouble (x : Binary64) : Except Complaint Int :=
  if !x.isFinite then .error .notFinite
  else if !x.isWhole then .error .fraction
  else
    match x.round with
    | .ok n => if -0x8000000000000000 < n ∧ n < 0x8000000000000000 then .ok n else .error .tooLarge
    | .error _ => .error .notFinite

/-- A whole number. -/
def int : Json → Except Complaint Int
  | .int n => .ok n
  | .bool b => .ok (if b then 1 else 0)
  | .float x => intOfDouble x
  | .str s => intOfText s
  | _ => .error .notInt

/-- A whole number that is not below zero. -/
def natural (j : Json) : Except Complaint Int := do
  let n ← int j
  if n < 0 then .error (.below 0) else .ok n

/-- A whole number from zero to one hundred. -/
def percent (j : Json) : Except Complaint Int := do
  let n ← natural j
  if n > 100 then .error (.above 100) else .ok n

/-- The finite double of decimal digits with a fraction and an exponent. -/
def decimal (negative : Bool) (cs : List Char) : Option Binary64 :=
  let whole := cs.takeWhile Char.isDigit
  let rest := cs.drop whole.length
  let (places, rest) := match rest with
    | '.' :: more => (more.takeWhile Char.isDigit, more.dropWhile Char.isDigit)
    | _ => ([], rest)
  let value (power : Int) :=
    Binary64.ofDecimal negative (Text.numberOfDigits (whole ++ places)) (power - places.length)
  if whole.isEmpty && places.isEmpty then none
  else match rest with
    | [] => some (value 0)
    | e :: more =>
      let (minus, digits) := Text.signAndRest more
      if (e = 'e' || e = 'E') && !digits.isEmpty && digits.all Char.isDigit then
        let power : Int := Text.numberOfDigits digits
        some (value (if minus then -power else power))
      else none

/-- The double that a text without blanks around it stands for. -/
def doubleOfChars (cs : List Char) : Option Binary64 :=
  let (negative, rest) := Text.signAndRest cs
  match String.ofList (rest.map Char.toLower) with
  | "inf" | "infinity" => some (.infinite negative)
  | "nan" => some .nan
  | _ => decimal negative rest

/-- The double that a text of a document holds. Blanks may stand around a numeral, unless it has
underscores. -/
def doubleOfText (s : String) : Except Complaint Binary64 :=
  match doubleOfChars (Text.trim Text.isSpace s.toList) with
  | some x => .ok x
  | none =>
    if hasSingleUnderscores s.toList then
      match doubleOfChars (s.toList.filter (· ≠ '_')) with
      | some x => .ok x
      | none => .error .notNumberText
    else .error .notNumberText

/-- A number. -/
def double : Json → Except Complaint Binary64
  | .float x => .ok x
  | .int n =>
    match Binary64.ofInt n with
    | .ok x => .ok x
    | .error _ => .error .notNumber
  | .bool b => .ok (if b then .one else .zero false)
  | .str s => doubleOfText s
  | _ => .error .notNumber

/-- A finite number. -/
def finite (j : Json) : Except Complaint Binary64 := do
  let x ← double j
  if x.isFinite then .ok x else .error .notFinite

/-- A text. -/
def text : Json → Except Complaint String
  | .str s => .ok s
  | _ => .error .notText

/-- A word of a vocabulary. -/
def word (α : Type) [Vocabulary α] (j : Json) : Except Complaint α :=
  let refused := Except.error (.notAmong (Vocabulary.names α))
  match j with
  | .str s => (Vocabulary.ofName? s).elim refused .ok
  | _ => refused

/-- A word that need not be in the vocabulary. -/
def anyWord (α : Type) [Vocabulary α] (j : Json) : Except Complaint (Word α) :=
  Word.ofName <$> text j

/-- The members of an object. -/
abbrev Members := List (String × Json)

/-- A value that may be null. -/
def orNull (read : Json → Checked α) : Json → Checked (Option α)
  | .null => .good none
  | j => (read j).map some

/-- A list of values of one kind. -/
def listOf (read : Json → Checked α) : Json → Checked (List α)
  | .arr items => Checked.list (items.zipIdx.map fun (j, i) => (read j).under (.item i))
  | _ => .complain .notList

/-- An object that describes a thing of the given name. -/
def object (name : String) (read : Members → Checked α) : Json → Checked α
  | .obj members => read members
  | _ => .complain (.notObject name)

/-- A member that has to be there. -/
def required (members : Members) (name : String) (read : Json → Checked α) : Checked α :=
  match members.lookup name with
  | some j => (read j).under (.field name)
  | none => (Checked.complain .missing).under (.field name)

/-- A member that has a default. -/
def optional (members : Members) (name : String) (read : Json → Checked α) (default : α) :
    Checked α :=
  match members.lookup name with
  | some j => (read j).under (.field name)
  | none => .good default

end Treasury.Field
