/-!
# Powers

The powers of two in which doubles are counted and the powers of ten in which decimals are. The main
statement, `fiveTo_mul_twoTo`, is why every power of two below one is a decimal.
-/

namespace Treasury.Numeric

/-- A power of two. -/
def twoTo (exponent : Nat) : Nat := Nat.pow 2 exponent

/-- A power of five. -/
def fiveTo (exponent : Nat) : Nat := Nat.pow 5 exponent

/-- A power of ten. -/
def tenTo (exponent : Nat) : Nat := Nat.pow 10 exponent

/-- A power of two is positive. -/
theorem twoTo_pos (exponent : Nat) : 0 < twoTo exponent := Nat.pow_pos (by decide)

/-- Powers of five and two make up powers of ten. -/
theorem fiveTo_mul_twoTo (exponent : Nat) :
    fiveTo exponent * twoTo exponent = tenTo exponent :=
  (Nat.mul_pow 5 2 exponent).symm

end Treasury.Numeric
