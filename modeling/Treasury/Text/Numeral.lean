import Treasury.Text.Blank
import Treasury.Text.Digit
import Treasury.Text.Quoted

/-!
# Numerals in settings and on the command line

A numeral is a whole number in decimal digits of any script, with an optional sign, single
underscores between digits and blanks around it. Numerals of more than `digitLimit` digits are
refused.
-/

namespace Treasury.Text

/-- The most digits that a numeral may have. -/
def digitLimit : Nat := 4300

/-- Why a text is not read as a whole number. -/
inductive NumeralError where
  /-- The text is not a numeral. -/
  | malformed (text : String)
  /-- The numeral has more digits than the limit. -/
  | tooLong (digits : Nat)
  deriving DecidableEq, Repr

/-- The words for a refused numeral. Of a long text only the start is shown. -/
def NumeralError.message : NumeralError → String
  | .malformed text =>
    "invalid literal for int() with base 10: " ++ .ofList ((quoted text).toList.take 200)
  | .tooLong digits =>
    s!"Exceeds the limit ({digitLimit} digits) for integer string conversion: " ++
      s!"value has {digits} digits; use sys.set_int_max_str_digits() to increase the limit"

/-- A character of a numeral in ASCII: blanks outside ASCII become spaces, and digits of any script
become ASCII digits. -/
def numeralChar (c : Char) : Char :=
  if c.toNat < 127 then c
  else if isBlank c then ' '
  else match decimalDigit? c with
    | some n => Nat.digitChar n
    | none => '?'

/-- Whether a character may stand inside a numeral. -/
def isNumeralPart (c : Char) : Bool := c.isDigit || c = '_'

/-- Whether every underscore stands between two digits. -/
def wellSpaced : List Char → Bool
  | [] => false
  | [c] => c.isDigit
  | c :: d :: rest => (c.isDigit || d.isDigit) && wellSpaced (d :: rest)

/-- The number written by decimal digits. -/
def numberOfDigits (digits : List Char) : Nat :=
  digits.foldl (fun n c => 10 * n + (c.toNat - '0'.toNat)) 0

/-- The sign at the start of a numeral and the rest. -/
def signAndRest : List Char → Bool × List Char
  | '-' :: rest => (true, rest)
  | '+' :: rest => (false, rest)
  | rest => (false, rest)

/-- The whole number that a text stands for. -/
def readNumeral (s : String) : Except NumeralError Int :=
  let (negative, cs) := signAndRest ((s.toList.map numeralChar).dropWhile isAsciiSpace)
  let body := cs.takeWhile isNumeralPart
  let digits := body.filter Char.isDigit
  if body.head?.all Char.isDigit && wellSpaced body then
    if digits.length > digitLimit then .error (.tooLong digits.length)
    else if (cs.dropWhile isNumeralPart).all isAsciiSpace then
      let size : Int := numberOfDigits digits
      .ok (if negative then -size else size)
    else .error (.malformed s)
  else .error (.malformed s)

end Treasury.Text
