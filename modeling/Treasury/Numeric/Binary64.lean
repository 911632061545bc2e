import Treasury.Numeric.Power
import Treasury.Numeric.Rounding

/-!
# Double-precision numbers

Gold multipliers and scaled magnitudes are doubles. A double is modelled by its exact value, a
significand times a power of two, so that every operation is an exact computation on whole numbers
followed by one rounding: `ofRatio` takes a quotient of natural numbers to the nearest double, a tie
to the even significand, and everything below is stated through it.

Conversions to and from whole numbers can fail, and the failure is a value of `NumberError`: a whole
number may be too large for a double, and an infinity or a NaN has no nearest whole number.
-/

namespace Treasury.Numeric

/-- Why a conversion between doubles and whole numbers has no answer. -/
inductive NumberError where
  /-- The number is beyond every finite double, or is an infinity. -/
  | overflow
  /-- The number is a NaN. -/
  | notANumber
  deriving DecidableEq, Repr, Inhabited

/-- A double-precision number. Finite values are `± significand * 2 ^ exponent`, with a significand
of 53 bits unless the exponent is the least one, `-1074`. NaNs are not told apart. -/
inductive Binary64 where
  /-- Not a number. -/
  | nan
  /-- An infinity. -/
  | infinite (negative : Bool)
  /-- A finite value. -/
  | finite (negative : Bool) (significand : Nat) (exponent : Int)
  deriving DecidableEq, Repr, Inhabited

namespace Binary64

/-- The exponent of the least positive double. -/
def leastExponent : Int := -1074

/-- The exponent of the largest doubles. -/
def greatestExponent : Int := 971

/-- A zero of the given sign. -/
def zero (negative : Bool) : Binary64 := .finite negative 0 leastExponent

/-- The number one. -/
def one : Binary64 := .finite false (twoTo 52) (-52)

/-- A significand of at most 53 bits, or `2 ^ 53` after a carry, with its exponent. -/
def pack (negative : Bool) (significand : Nat) (exponent : Int) : Binary64 :=
  let carried := significand = twoTo 53
  let significand := if carried then twoTo 52 else significand
  let exponent := if carried then exponent + 1 else exponent
  if exponent > greatestExponent then .infinite negative
  else .finite negative significand exponent

/-- The exponent at which `num / den` has a significand of 53 bits, or the least exponent. -/
def exponentOf (num den : Nat) : Int :=
  -- Both logarithms are rounded down, so the guess is right or one too high.
  let guess : Int := (Nat.log2 num : Int) - Nat.log2 den - 52
  let tooHigh :=
    if guess + 52 ≥ 0 then num < den * twoTo (guess + 52).toNat
    else num * twoTo (-(guess + 52)).toNat < den
  max leastExponent (if tooHigh then guess - 1 else guess)

/-- The double nearest to `± num / den`, a tie to the even significand. -/
def ofRatio (negative : Bool) (num den : Nat) : Binary64 :=
  if num = 0 then zero negative
  else
    let exponent := exponentOf num den
    let significand :=
      if exponent ≥ 0 then roundHalfEven num (den * twoTo exponent.toNat)
      else roundHalfEven (num * twoTo (-exponent).toNat) den
    pack negative significand exponent

/-- The double nearest to `± significand * 2 ^ exponent`. -/
def ofScaled (negative : Bool) (significand : Nat) (exponent : Int) : Binary64 :=
  if exponent ≥ 0 then ofRatio negative (significand * twoTo exponent.toNat) 1
  else ofRatio negative significand (twoTo (-exponent).toNat)

/-- The double nearest to `± digits * 10 ^ exponent`. Exponents far outside the range of doubles are
settled by size alone. -/
def ofDecimal (negative : Bool) (digits : Nat) (exponent : Int) : Binary64 :=
  let magnitude : Int := exponent + (Nat.log2 digits : Int) / 3
  if digits = 0 then zero negative
  else if exponent > 400 then .infinite negative
  else if magnitude < -1200 then zero negative
  else if exponent ≥ 0 then ofRatio negative (digits * tenTo exponent.toNat) 1
  else ofRatio negative digits (tenTo (-exponent).toNat)

/-- Whether a double is neither an infinity nor a NaN. -/
def isFinite : Binary64 → Bool
  | .finite .. => true
  | _ => false

/-- A result that has to be finite. -/
def finiteOr (x : Binary64) (e : NumberError) : Except NumberError Binary64 :=
  if x.isFinite then .ok x else .error e

/-- The double nearest to a whole number, if that is within range. -/
def ofInt (n : Int) : Except NumberError Binary64 :=
  (ofRatio (n < 0) n.natAbs 1).finiteOr .overflow

/-- The double nearest to the quotient of a whole number by a positive one. -/
def quotient (num : Int) (den : Nat) : Except NumberError Binary64 :=
  (ofRatio (num < 0) num.natAbs den).finiteOr .overflow

/-- The product, rounded once. -/
def mul : Binary64 → Binary64 → Binary64
  | .nan, _ | _, .nan => .nan
  | .infinite s, .infinite t => .infinite (s != t)
  | .infinite s, .finite t m _ | .finite s m _, .infinite t =>
    if m = 0 then .nan else .infinite (s != t)
  | .finite s m e, .finite t n f => ofScaled (s != t) (m * n) (e + f)

instance : Mul Binary64 := ⟨mul⟩

/-- A finite double as a whole number of units `2 ^ exponent`, for an exponent not above its own. -/
def units (negative : Bool) (significand : Nat) (own exponent : Int) : Int :=
  let size : Int := significand * twoTo (own - exponent).toNat
  if negative then -size else size

/-- The sum, rounded once. An exact sum of zero is positive unless both terms are negative. -/
def add : Binary64 → Binary64 → Binary64
  | .nan, _ | _, .nan => .nan
  | .infinite s, .infinite t => if s = t then .infinite s else .nan
  | .infinite s, .finite .. | .finite .., .infinite s => .infinite s
  | .finite s m e, .finite t n f =>
    let low := min e f
    let total := units s m e low + units t n f low
    if total = 0 then zero (s && t) else ofScaled (total < 0) total.natAbs low

instance : Add Binary64 := ⟨add⟩

/-- The same size with the other sign. -/
def neg : Binary64 → Binary64
  | .nan => .nan
  | .infinite s => .infinite !s
  | .finite s m e => .finite (!s) m e

instance : Neg Binary64 := ⟨neg⟩

/-- The difference, rounded once. -/
def sub (x y : Binary64) : Binary64 := x + -y

instance : Sub Binary64 := ⟨sub⟩

/-- The whole number nearest to a double, a tie to the even neighbour. -/
def round : Binary64 → Except NumberError Int
  | .nan => .error .notANumber
  | .infinite _ => .error .overflow
  | .finite s m e =>
    let size : Nat :=
      if e ≥ 0 then m * twoTo e.toNat else roundHalfEven m (twoTo (-e).toNat)
    .ok (if s then -(size : Int) else size)

/-- The largest whole number that is not above a double. -/
def floor : Binary64 → Except NumberError Int
  | .nan => .error .notANumber
  | .infinite _ => .error .overflow
  | .finite s m e =>
    let size : Int := if s then -(m : Int) else m
    .ok (if e ≥ 0 then size * twoTo e.toNat else Int.fdiv size (twoTo (-e).toNat))

/-- Whether a double has no fraction. -/
def isWhole : Binary64 → Bool
  | .finite _ m e => e ≥ 0 || m % twoTo (-e).toNat == 0
  | _ => false

/-- Whether a double is greater than a whole number, compared exactly. -/
def exceeds (x : Binary64) (n : Int) : Bool :=
  match x with
  | .nan => false
  | .infinite s => !s
  | .finite s m e =>
    if e ≥ 0 then units s m e 0 > n
    else (if s then -(m : Int) else m) > n * twoTo (-e).toNat

/-- The 64 bits of the interchange format. -/
def toBits : Binary64 → Nat
  | .nan => 0x7ff8000000000000
  | .infinite s => s.toNat * twoTo 63 + 0x7ff0000000000000
  | .finite s m e =>
    s.toNat * twoTo 63
      + (if m < twoTo 52 then m else (e + 1075).toNat * twoTo 52 + (m - twoTo 52))

end Binary64

end Treasury.Numeric
