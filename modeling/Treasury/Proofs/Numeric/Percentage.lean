import Treasury.Activation.Magnitude
import Treasury.Proofs.Numeric.Range

/-!
# Percentages in doubles

A percentage of an amount is rounded twice, to a double and then to a whole number. In between the
quotient has 53 bits at most, so that large amounts come out a little more or less than they are.

* `Binary64.rounded` is the whole number that the two roundings make of a quotient, and
  `Binary64.round_ofRatio` that it is what becomes of a double.
* `Binary64.rounded_mul_eq_iff`: of a whole number it makes the number itself exactly if that is a
  double.
* `Binary64.rounded_le_of_percent`: of less than the whole it makes no more than the whole.
* `Binary64.rounded_hundredths_pos_iff`: of hundredths it makes something from more than a half on.
* `percentOf_getD`: a percentage is what it makes of hundredths, with their sign.
-/

namespace Treasury

namespace Numeric

/-! ## Rounding once -/

/-- A common factor does not matter. -/
theorem roundHalfEven_mul_mul (num den : Nat) {k : Nat} (hk : 0 < k) :
    roundHalfEven (num * k) (den * k) = roundHalfEven num den := by
  unfold roundHalfEven
  rw [Nat.mul_div_mul_right _ _ hk, Nat.mul_mod_mul_right, ← Nat.mul_assoc 2]
  simp only [Nat.mul_lt_mul_right hk]

/-- A quotient that is a whole number at most is rounded to that number at most. -/
theorem roundHalfEven_le_of_le {num den n : Nat} (hden : 0 < den) (h : num ≤ den * n) :
    roundHalfEven num den ≤ n := by
  rcases Nat.eq_or_lt_of_le h with heq | hlt
  · have hexact : roundHalfEven num den = n := by
      rw [heq, Nat.mul_comm]
      exact roundHalfEven_mul n den hden
    exact Nat.le_of_eq hexact
  · exact roundHalfEven_le_of_lt hlt

/-- A quotient that is a whole number at least is rounded to that number at least. -/
theorem le_roundHalfEven_of_le {num den n : Nat} (hden : 0 < den) (h : n * den ≤ num) :
    n ≤ roundHalfEven num den :=
  Nat.le_trans ((Nat.le_div_iff_mul_le hden).mpr h) (div_le_roundHalfEven num den)

/-- Something is left of a quotient of more than a half. -/
theorem roundHalfEven_pos_iff {num den : Nat} (hden : 0 < den) :
    0 < roundHalfEven num den ↔ den < 2 * num := by
  rcases Nat.lt_or_ge num den with hlt | hge
  · -- Below one the quotient is rounded to zero or one, and a half is rounded to zero.
    unfold roundHalfEven
    rw [Nat.div_eq_of_lt hlt, Nat.mod_eq_of_lt hlt]
    dsimp only
    split
    · omega
    · split <;> omega
  · have hone : 1 ≤ roundHalfEven num den := le_roundHalfEven_of_le hden (by omega)
    omega

namespace Binary64

/-! ## Rounding twice -/

/-- The whole number nearest to `significand * 2 ^ exponent`. -/
def nearest (significand : Nat) (exponent : Int) : Nat :=
  if exponent ≥ 0 then significand * twoTo exponent.toNat
  else roundHalfEven significand (twoTo (-exponent).toNat)

/-- The significand of a quotient, before a carry. -/
def significandOf (num den : Nat) : Nat :=
  if exponentOf num den ≥ 0 then roundHalfEven num (den * twoTo (exponentOf num den).toNat)
  else roundHalfEven (num * twoTo (-exponentOf num den).toNat) den

/-- The whole number nearest to the double nearest to a quotient, if there is one. -/
def rounded (num den : Nat) : Nat := nearest (significandOf num den) (exponentOf num den)

/-- A quotient with bits below the point is scaled up, rounded, and rounded again at the point. -/
theorem rounded_of_neg {num den places : Nat}
    (h : exponentOf num den = -((places + 1 : Nat) : Int)) :
    rounded num den =
      roundHalfEven (roundHalfEven (num * twoTo (places + 1)) den) (twoTo (places + 1)) := by
  unfold rounded nearest significandOf
  rw [h, if_neg (by omega), if_neg (by omega), Int.neg_neg, Int.toNat_natCast]

/-- A quotient without bits below the point is scaled down and rounded once. -/
theorem rounded_of_nonneg {num den zeros : Nat} (h : exponentOf num den = zeros) :
    rounded num den = roundHalfEven num (den * twoTo zeros) * twoTo zeros := by
  unfold rounded nearest significandOf
  rw [h, if_pos (Int.natCast_nonneg _), if_pos (Int.natCast_nonneg _), Int.toNat_natCast]

/-- A quotient has bits below the point or it does not. -/
theorem exists_exponentOf_eq (num den : Nat) :
    (∃ places : Nat, exponentOf num den = -((places + 1 : Nat) : Int)) ∨
      ∃ zeros : Nat, exponentOf num den = zeros := by
  rcases Int.lt_or_le (exponentOf num den) 0 with hneg | hnonneg
  · exact .inl ⟨(-exponentOf num den - 1).toNat, by omega⟩
  · exact .inr (Int.eq_ofNat_of_zero_le hnonneg)

/-- A carry does not change the number. -/
theorem nearest_carry (exponent : Int) :
    nearest (twoTo 52) (exponent + 1) = nearest (twoTo 53) exponent := by
  have h53 : twoTo 53 = twoTo 52 * 2 := twoTo_succ 52
  unfold nearest
  rcases Int.lt_trichotomy exponent (-1) with hlt | rfl | hgt
  · obtain ⟨k, hk⟩ : ∃ k : Nat, exponent = -(k + 2 : Nat) := ⟨(-exponent - 2).toNat, by omega⟩
    rw [if_neg (by omega), if_neg (by omega), show (-exponent).toNat = k + 1 + 1 by omega,
      show (-(exponent + 1)).toNat = k + 1 by omega, h53, twoTo_succ (k + 1),
      roundHalfEven_mul_mul _ _ Nat.two_pos]
  · exact (roundHalfEven_mul (twoTo 52) 2 Nat.two_pos).symm
  · obtain ⟨k, rfl⟩ : ∃ k : Nat, exponent = k := ⟨exponent.toNat, by omega⟩
    rw [if_pos (by omega), if_pos (by omega), show ((k : Int) + 1).toNat = k + 1 by omega,
      Int.toNat_natCast, h53, twoTo_succ k, Nat.mul_assoc, Nat.mul_comm 2]

/-- A number that was packed is nearest to what it was packed from. -/
theorem round_pack {negative : Bool} {significand : Nat} {exponent : Int}
    (h : (pack negative significand exponent).isFinite = true) :
    (pack negative significand exponent).round =
      .ok (if negative then -(nearest significand exponent : Int)
        else nearest significand exponent) := by
  -- A significand that is rounded up to the next power is carried into the exponent.
  by_cases hcarry : significand = twoTo 53
  · subst hcarry
    rw [← nearest_carry]
    unfold pack at h ⊢
    simp only [if_true] at h ⊢
    split at h
    · cases h
    · next hle =>
      rw [if_neg hle]
      rfl
  · unfold pack at h ⊢
    simp only [hcarry, if_false] at h ⊢
    split at h
    · cases h
    · next hle =>
      rw [if_neg hle]
      rfl

@[simp]
theorem rounded_zero (den : Nat) : rounded 0 den = 0 := by
  unfold rounded nearest significandOf
  simp

/-- The whole number nearest to the double of a quotient. -/
theorem round_ofRatio {num den : Nat} (hden : den ≠ 0) (h : num < den * limit) (negative : Bool) :
    (ofRatio negative num den).round =
      .ok (if negative then -(rounded num den : Int) else rounded num den) := by
  have hfinite := (isFinite_ofRatio_iff hden negative).mpr h
  by_cases hnum : num = 0
  · rw [hnum, rounded_zero]
    unfold ofRatio
    rw [if_pos rfl, round_zero]
    split <;> rfl
  · unfold ofRatio at hfinite ⊢
    rw [if_neg hnum] at hfinite ⊢
    exact round_pack hfinite

/-! ## Whole numbers that are doubles -/

/-- A whole number is a double: it has 53 bits at most, but for zeros at the end, and is in
range. -/
def IsDouble (n : Nat) : Prop := ∃ m e, m < twoTo 53 ∧ e ≤ 971 ∧ n = m * twoTo e

/-- Whole numbers of 53 bits are doubles. -/
theorem isDouble_of_lt {n : Nat} (h : n < twoTo 53) : IsDouble n :=
  ⟨n, 0, h, Nat.zero_le _, (Nat.mul_one n).symm⟩

/-- A double is in range. -/
theorem IsDouble.lt_limit {n : Nat} (h : IsDouble n) : n < limit := by
  obtain ⟨m, e, hm, he, rfl⟩ := h
  exact mul_twoTo_lt_limit hm he

/-- The exponent of a number of `k + 1` bits. -/
theorem exponentOf_mul_eq {n den k : Nat} (hden : den ≠ 0) (hlow : twoTo k ≤ n)
    (hhigh : n < twoTo (k + 1)) : exponentOf (n * den) den = (k : Int) - 52 := by
  have hpos : 0 < den := Nat.pos_of_ne_zero hden
  have hnpos : 0 < n := Nat.lt_of_lt_of_le (twoTo_pos k) hlow
  have hn : n * den ≠ 0 := Nat.mul_ne_zero (Nat.ne_of_gt hnpos) hden
  have hle := (le_exponentOf_iff hn hden k).mpr (by
    rw [Nat.mul_comm n]
    exact Nat.mul_le_mul_left den hlow)
  have hlt := (not_congr (le_exponentOf_iff hn hden (k + 1))).mpr (by
    rw [Nat.mul_comm n, Nat.not_le]
    exact Nat.mul_lt_mul_of_pos_left hhigh hpos)
  omega

/-- A number of at least 53 bits that is scaled down to 53 of them and up again is the same exactly
if it is a double. -/
theorem roundHalfEven_mul_twoTo_eq_iff {n e : Nat} (hlow : twoTo (52 + e) ≤ n)
    (hhigh : n < twoTo (53 + e)) (hn : n < limit) :
    roundHalfEven n (twoTo e) * twoTo e = n ↔ IsDouble n := by
  constructor
  · intro h
    refine ⟨roundHalfEven n (twoTo e), e, ?_, ?_, h.symm⟩
    · apply Nat.lt_of_mul_lt_mul_right (a := twoTo e)
      rw [h, ← twoTo_add]
      exact hhigh
    · have hrange : twoTo (52 + e) < twoTo 1024 :=
        calc twoTo (52 + e) ≤ n := hlow
          _ < limit := hn
          _ ≤ twoTo 1024 := Nat.sub_le _ _
      have := twoTo_lt_twoTo_iff.mp hrange
      omega
  · rintro ⟨m, f, hm, -, rfl⟩
    -- The number has at least 53 bits, so it has as many zeros at its end as it loses bits.
    have hbits : twoTo (52 + e) < twoTo (53 + f) :=
      calc twoTo (52 + e) ≤ m * twoTo f := hlow
        _ < twoTo 53 * twoTo f := Nat.mul_lt_mul_of_pos_right hm (twoTo_pos f)
        _ = twoTo (53 + f) := (twoTo_add 53 f).symm
    have hzeros := twoTo_lt_twoTo_iff.mp hbits
    obtain ⟨d, rfl⟩ : ∃ d, f = d + e := ⟨f - e, by omega⟩
    rw [twoTo_add, ← Nat.mul_assoc, roundHalfEven_mul _ _ (twoTo_pos e)]

/-- Of a whole number that is a double, or is in range at least, the two roundings make the number
itself exactly if it is a double. -/
theorem rounded_mul_eq_iff {n den : Nat} (hden : den ≠ 0) (hn : n < limit) :
    rounded (n * den) den = n ↔ IsDouble n := by
  have hpos : 0 < den := Nat.pos_of_ne_zero hden
  rcases Nat.eq_zero_or_pos n with rfl | hnpos
  · rw [Nat.zero_mul, rounded_zero]
    exact iff_of_true rfl (isDouble_of_lt (twoTo_pos 53))
  · obtain ⟨k, hlow, hhigh⟩ : ∃ k, twoTo k ≤ n ∧ n < twoTo (k + 1) :=
      ⟨n.log2, Nat.log2_self_le (Nat.ne_of_gt hnpos), Nat.lt_log2_self⟩
    have hexp := exponentOf_mul_eq hden hlow hhigh
    rcases Nat.lt_or_ge k 52 with hk | hk
    · -- A number of at most 52 bits is scaled up first, and nothing is lost.
      have hneg : exponentOf (n * den) den = -((51 - k + 1 : Nat) : Int) := by omega
      rw [rounded_of_neg hneg, Nat.mul_right_comm, roundHalfEven_mul _ _ hpos,
        roundHalfEven_mul _ _ (twoTo_pos _)]
      refine iff_of_true rfl (isDouble_of_lt (Nat.lt_trans hhigh ?_))
      exact twoTo_lt_twoTo_iff.mpr (by omega)
    · obtain ⟨e, rfl⟩ := Nat.exists_eq_add_of_le hk
      have hnonneg : exponentOf (n * den) den = e := by omega
      rw [rounded_of_nonneg hnonneg, Nat.mul_comm den, roundHalfEven_mul_mul _ _ hpos]
      have hbits : n < twoTo (53 + e) := by
        rw [show 53 + e = 52 + e + 1 by omega]
        exact hhigh
      exact roundHalfEven_mul_twoTo_eq_iff hlow hbits hn

/-! ## Parts of a whole -/

/-- A quotient whose double has no fraction is large. -/
theorem le_of_exponentOf_eq {num den e : Nat} (hnum : num ≠ 0) (hden : den ≠ 0)
    (h : exponentOf num den = e) : den * twoTo (e + 52) ≤ num := by
  apply (le_exponentOf_iff hnum hden (e + 52)).mp
  omega

/-- Of less than the whole the two roundings make no more than the whole. -/
theorem rounded_le_of_percent {n percent : Nat} (h : percent < 100) :
    rounded (n * percent) 100 ≤ n := by
  rcases Nat.eq_zero_or_pos (n * percent) with hzero | hpos
  · rw [hzero, rounded_zero]
    exact Nat.zero_le n
  · have hnum : n * percent ≤ 99 * n := by
      rw [Nat.mul_comm]
      exact Nat.mul_le_mul_right n (Nat.le_of_lt_succ h)
    obtain ⟨q, hq⟩ | ⟨e, he⟩ := exists_exponentOf_eq (n * percent) 100
    · -- The number itself is no obstacle to either rounding.
      rw [rounded_of_neg hq]
      apply roundHalfEven_le_of_le (twoTo_pos _)
      apply roundHalfEven_le_of_le (by decide)
      rw [Nat.mul_comm (twoTo _), ← Nat.mul_assoc]
      exact Nat.mul_le_mul_right _ (by omega)
    · -- The error is at most half a unit, and a unit is less than a hundredth.
      have hlarge := le_of_exponentOf_eq (Nat.ne_of_gt hpos) (by decide) he
      rw [rounded_of_nonneg he]
      have herror := (two_mul_roundHalfEven_error (n * percent) (100 * twoTo e)
        (Nat.mul_pos (by decide) (twoTo_pos e))).2
      have hunit : twoTo (e + 52) = twoTo e * 4503599627370496 := twoTo_add e 52
      generalize roundHalfEven (n * percent) (100 * twoTo e) = s at *
      have hs : s * (100 * twoTo e) = 100 * (s * twoTo e) := Nat.mul_left_comm ..
      omega

/-- More than fifty hundredths are still more than a half when they have been scaled up and
rounded. -/
theorem half_lt_roundHalfEven {n places : Nat} (hlarge : 50 < n)
    (h : exponentOf n 100 = -((places + 1 : Nat) : Int)) :
    twoTo places < roundHalfEven (n * twoTo (places + 1)) 100 := by
  have hdouble : twoTo (places + 1) = twoTo places * 2 := twoTo_succ places
  have h52 : 0 < twoTo 52 := twoTo_pos 52
  rcases Nat.lt_or_ge places 52 with hfew | hmany
  · -- With few bits below the point the quotient is far above a half.
    have hle : 100 * twoTo (51 - places) ≤ n :=
      (le_exponentOf_iff (by omega) (by decide) (51 - places)).mp (by omega)
    have hscaled : twoTo 52 * 100 ≤ n * twoTo (places + 1) :=
      calc twoTo 52 * 100 = 100 * twoTo (51 - places) * twoTo (places + 1) := by
            rw [Nat.mul_assoc, ← twoTo_add, Nat.mul_comm,
              show 51 - places + (places + 1) = 52 by omega]
        _ ≤ n * twoTo (places + 1) := Nat.mul_le_mul_right _ hle
    have hs := le_roundHalfEven_of_le (by decide) hscaled
    have hunit : twoTo (places + 1) ≤ twoTo 52 := twoTo_le_twoTo_iff.mpr (by omega)
    have hpos : 0 < twoTo places := twoTo_pos places
    omega
  · -- With many bits the first rounding is too small to matter.
    have hmul : 51 * twoTo (places + 1) ≤ n * twoTo (places + 1) := Nat.mul_le_mul_right _ hlarge
    have herror := (two_mul_roundHalfEven_error (n * twoTo (places + 1)) 100 (by decide)).1
    have hunit : twoTo 52 ≤ twoTo places := twoTo_le_twoTo_iff.mpr hmany
    have h52 : twoTo 52 = 4503599627370496 := rfl
    omega

/-- Of hundredths the two roundings make something from more than a half on. -/
theorem rounded_hundredths_pos_iff (n : Nat) : 0 < rounded n 100 ↔ 50 < n := by
  rcases Nat.eq_zero_or_pos n with rfl | hpos
  · simp
  · -- A small quotient has its unit below one, and a large one is a multiple of its unit.
    obtain ⟨q, hq⟩ | ⟨e, he⟩ := exists_exponentOf_eq n 100
    · have hdouble : twoTo (q + 1) = twoTo q * 2 := twoTo_succ q
      rw [rounded_of_neg hq, roundHalfEven_pos_iff (twoTo_pos _)]
      rcases Nat.lt_or_ge 50 n with hlarge | hsmall
      · have hhalf := half_lt_roundHalfEven hlarge hq
        exact iff_of_true (by omega) hlarge
      · have hs : roundHalfEven (n * twoTo (q + 1)) 100 ≤ twoTo q := by
          apply roundHalfEven_le_of_le (by decide)
          have hmul : n * twoTo (q + 1) ≤ 50 * twoTo (q + 1) := Nat.mul_le_mul_right _ hsmall
          omega
        exact iff_of_false (by omega) (Nat.not_lt.mpr hsmall)
    · have hlarge := le_of_exponentOf_eq (Nat.ne_of_gt hpos) (by decide) he
      have hunit : twoTo e ≤ twoTo (e + 52) := twoTo_le_twoTo_iff.mpr (by omega)
      have he0 : 0 < twoTo e := twoTo_pos e
      have hs : 1 ≤ roundHalfEven n (100 * twoTo e) :=
        le_roundHalfEven_of_le (Nat.mul_pos (by decide) he0) (by omega)
      rw [rounded_of_nonneg he]
      exact iff_of_true (Nat.mul_pos hs he0) (by omega)

/-- A quotient that has a double is rounded twice. -/
theorem quotient_bind_round {num : Int} {den : Nat} (hden : den ≠ 0) :
    (quotient num den >>= round) =
      if num.natAbs < den * limit then
        .ok (if num < 0 then -(rounded num.natAbs den : Int) else rounded num.natAbs den)
      else .error .overflow := by
  unfold quotient finiteOr
  by_cases h : num.natAbs < den * limit
  · rw [if_pos h, if_pos ((isFinite_ofRatio_iff hden _).mpr h)]
    change (ofRatio (num < 0) num.natAbs den).round = _
    rw [round_ofRatio hden h]
    simp
  · rw [if_neg h, if_neg fun hfinite => h ((isFinite_ofRatio_iff hden _).mp hfinite)]
    rfl

end Binary64

end Numeric

open Numeric Numeric.Binary64

/-- A percentage is worked out of hundredths, with their sign. Where they are out of range there is
none, and it counts as zero here. -/
theorem percentOf_getD (amount percent : Int) :
    (percentOf amount percent).toOption.getD 0 =
      if (amount * percent).natAbs < 100 * limit then
        if amount * percent < 0 then -(rounded (amount * percent).natAbs 100 : Int)
        else rounded (amount * percent).natAbs 100
      else 0 := by
  have h : percentOf amount percent = _ := quotient_bind_round (by decide)
  rw [h]
  split <;> rfl

end Treasury
