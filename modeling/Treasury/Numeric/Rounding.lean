/-!
# Rounding a quotient

The quotient of two whole numbers, rounded to the nearest whole number with ties going to the even
neighbour. Everything in the library that rounds does it here: the doubles of `Numeric.Binary64`,
percentages of a hoard and scaled magnitudes. The main statement, `two_mul_roundHalfEven_error`,
bounds the error by half a unit.
-/

namespace Treasury.Numeric

/-- The quotient `num / den` rounded to the nearest natural number, a tie to the even neighbour. -/
def roundHalfEven (num den : Nat) : Nat :=
  let quotient := num / den
  let twice := 2 * (num % den)
  if twice < den then quotient
  else if den < twice then quotient + 1
  else quotient + quotient % 2

/-- An exact quotient is not changed by rounding. -/
theorem roundHalfEven_mul (n den : Nat) (h : 0 < den) : roundHalfEven (n * den) den = n := by
  simp [roundHalfEven, Nat.mul_div_cancel n h, h]

/-- Rounding to the whole number nearest to a whole number changes nothing. -/
@[simp]
theorem roundHalfEven_one (n : Nat) : roundHalfEven n 1 = n := by
  simpa using roundHalfEven_mul n 1 Nat.one_pos

/-- Zero rounds to zero. -/
@[simp]
theorem roundHalfEven_zero (den : Nat) : roundHalfEven 0 den = 0 := by
  simp only [roundHalfEven, Nat.zero_div, Nat.zero_mod]
  grind

/-- The rounded quotient is one of the two neighbours of the exact one. -/
theorem div_le_roundHalfEven (num den : Nat) : num / den ≤ roundHalfEven num den := by
  simp only [roundHalfEven]
  split
  · exact Nat.le_refl _
  · split <;> omega

/-- The rounded quotient exceeds the floor by at most one. -/
theorem roundHalfEven_le_succ (num den : Nat) : roundHalfEven num den ≤ num / den + 1 := by
  simp only [roundHalfEven]
  split
  · omega
  · split <;> omega

/-- Twice the error of a rounded quotient is at most the divisor, on both sides. -/
theorem two_mul_roundHalfEven_error (num den : Nat) (h : 0 < den) :
    2 * num ≤ 2 * (roundHalfEven num den * den) + den ∧
      2 * (roundHalfEven num den * den) ≤ 2 * num + den := by
  have hdiv := Nat.div_add_mod num den
  have hcomm : den * (num / den) = num / den * den := Nat.mul_comm _ _
  have hlt : num % den < den := Nat.mod_lt _ h
  simp only [roundHalfEven]
  split
  · omega
  · split
    · rw [Nat.add_mul, Nat.one_mul]
      omega
    · rcases Nat.mod_two_eq_zero_or_one (num / den) with heven | hodd
      · rw [heven, Nat.add_zero]
        omega
      · rw [hodd, Nat.add_mul, Nat.one_mul]
        omega

end Treasury.Numeric
