import Treasury.Numeric.Binary64

/-!
# Doubles as decimals

Every finite double is a decimal: a power of two below one is a power of five with the point moved
(`fiveTo_mul_twoTo`). `Binary64.decimal` writes that decimal out in full, so that reading it gives
the same double back.
-/

namespace Treasury.Numeric

/-- A list of digits without the zeros at its end, but with one digit at least. -/
def withoutEndZeros (digits : List Char) : List Char :=
  match digits.reverse.dropWhile (· = '0') with
  | [] => ['0']
  | rest => rest.reverse

/-- The decimal digits of a number, filled up with zeros in front to a number of places. -/
def digitsFrom (places n : Nat) : List Char :=
  let digits := Nat.toDigits 10 n
  List.replicate (places - digits.length) '0' ++ digits

/-- The decimal `n / 10 ^ places`, with a point and a digit after it. -/
def pointed (places n : Nat) : List Char :=
  let digits := digitsFrom (places + 1) n
  let whole := digits.length - places
  digits.take whole ++ '.' :: withoutEndZeros (digits.drop whole)

namespace Binary64

/-- A double as a decimal that has exactly its value; an infinity and a NaN by their names. -/
def decimal : Binary64 → String
  | .nan => "NaN"
  | .infinite negative => if negative then "-Infinity" else "Infinity"
  | .finite negative m e =>
    let digits :=
      if e ≥ 0 then pointed 0 (m * twoTo e.toNat) else pointed (-e).toNat (m * fiveTo (-e).toNat)
    .ofList (if negative then '-' :: digits else digits)

end Binary64

end Treasury.Numeric
