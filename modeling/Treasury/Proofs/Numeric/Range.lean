import Treasury.Numeric.Binary64

/-!
# The range of doubles

Which quotients have a double near them. A quotient is rounded to infinity from halfway between the
largest double and the power of two behind it, so everything here is said with that point, `limit`.

* `le_exponentOf_iff`: a quotient is at least `2 ^ n` if its exponent says so.
* `isFinite_ofRatio_iff`: the double nearest to a quotient is finite if the quotient is below
  `limit`; `ofInt_isOk_iff` and `quotient_isOk_iff` are the conversions.
* `natAbs_round_lt_limit`: a quotient that has a double is rounded to a whole number that has
  one as well.
* `isFinite_mul_part`: a part of a double that is nearest to a quotient is finite.
* `exists_mul_eq_zero`: a zero stays one, whatever finite double it is multiplied by.
-/

namespace Treasury.Numeric

/-- The least whole number that is rounded to infinity. -/
def limit : Nat := twoTo 1024 - twoTo 970

theorem twoTo_add (m n : Nat) : twoTo (m + n) = twoTo m * twoTo n := Nat.pow_add 2 m n

theorem twoTo_succ (n : Nat) : twoTo (n + 1) = twoTo n * 2 := Nat.pow_succ 2 n

theorem twoTo_lt_twoTo_iff {m n : Nat} : twoTo m < twoTo n ↔ m < n :=
  Nat.pow_lt_pow_iff_right (by decide)

theorem twoTo_le_twoTo_iff {m n : Nat} : twoTo m ≤ twoTo n ↔ m ≤ n :=
  Nat.pow_le_pow_iff_right (by decide)

/-- A quotient that is short of an odd number and the next is rounded to the next from halfway
on. -/
theorem roundHalfEven_eq_succ_iff {num den odd : Nat} (hodd : odd % 2 = 1) (hden : 0 < den)
    (h : num < den * (odd + 1)) :
    roundHalfEven num den = odd + 1 ↔ den * (2 * odd + 1) ≤ 2 * num := by
  have hdiv := Nat.div_add_mod num den
  have hmod : num % den < den := Nat.mod_lt num hden
  have hexpand : den * (2 * odd + 1) = 2 * (den * odd) + den := by
    rw [Nat.mul_add, Nat.mul_left_comm, Nat.mul_one]
  have hle : num / den < odd + 1 := Nat.div_lt_of_lt_mul h
  rw [hexpand]
  -- Whether the quotient reaches the odd number decides which way the rounding can go.
  rcases Nat.lt_or_ge (num / den) odd with hq | hq
  · have hfloor : num < odd * den := (Nat.div_lt_iff_lt_mul hden).mp hq
    rw [Nat.mul_comm] at hfloor
    have hround := roundHalfEven_le_succ num den
    constructor <;> intro <;> omega
  · obtain hq : num / den = odd := by omega
    rw [hq] at hdiv
    simp only [roundHalfEven, hq, hodd]
    split
    · omega
    · split <;> omega

/-- A quotient below a whole number is rounded to that number at most. -/
theorem roundHalfEven_le_of_lt {num den n : Nat} (h : num < den * n) :
    roundHalfEven num den ≤ n := by
  have hdiv : num / den < n := Nat.div_lt_of_lt_mul h
  have := roundHalfEven_le_succ num den
  omega

/-- Numbers of at most 53 bits, but for zeros at the end, are below the limit, unless the zeros are
too many. -/
theorem mul_twoTo_lt_limit {m e : Nat} (hm : m < twoTo 53) (he : e ≤ 971) :
    m * twoTo e < limit := by
  have hlimit : limit = (twoTo 54 - 1) * twoTo 970 := by
    rw [limit, Nat.sub_mul, Nat.one_mul, ← twoTo_add]
  have h971 : twoTo 971 = twoTo 970 * 2 := twoTo_succ 970
  rw [hlimit]
  calc m * twoTo e ≤ (twoTo 53 - 1) * twoTo 971 :=
        Nat.mul_le_mul (Nat.le_pred_of_lt hm) (twoTo_le_twoTo_iff.mpr he)
    _ = (twoTo 53 - 1) * 2 * twoTo 970 := by rw [h971, Nat.mul_comm (twoTo 970), Nat.mul_assoc]
    _ < (twoTo 54 - 1) * twoTo 970 := Nat.mul_lt_mul_of_pos_right (by decide) (twoTo_pos 970)

namespace Binary64

/-- A quotient is at least a power of two if its exponent says so. -/
theorem le_exponentOf_iff {num den : Nat} (hnum : num ≠ 0) (hden : den ≠ 0) (n : Nat) :
    (n : Int) - 52 ≤ exponentOf num den ↔ den * twoTo n ≤ num := by
  have hnumLow : twoTo num.log2 ≤ num := Nat.log2_self_le hnum
  have hnumHigh : num < twoTo (num.log2 + 1) := Nat.lt_log2_self
  have hdenLow : twoTo den.log2 ≤ den := Nat.log2_self_le hden
  have hdenHigh : den < twoTo (den.log2 + 1) := Nat.lt_log2_self
  have hmul : ∀ {a b : Nat}, den * twoTo a < den * twoTo b ↔ a < b := fun {a b} =>
    (Nat.mul_lt_mul_left (Nat.pos_of_ne_zero hden)).trans twoTo_lt_twoTo_iff
  simp only [exponentOf, leastExponent]
  rcases Nat.lt_or_ge num.log2 den.log2 with hlog | hlog
  · -- The quotient is below one.
    have hsmall : num < den * twoTo n :=
      calc num < twoTo (num.log2 + 1) := hnumHigh
        _ ≤ twoTo den.log2 := twoTo_le_twoTo_iff.mpr hlog
        _ ≤ den := hdenLow
        _ ≤ den * twoTo n := Nat.le_mul_of_pos_right den (twoTo_pos n)
    constructor
    · split <;> omega
    · omega
  · -- The logarithms guess the exponent; it is one less where the guess is too high.
    obtain ⟨k, hk⟩ := Nat.exists_eq_add_of_le hlog
    have hguess : (num.log2 : Int) - den.log2 - 52 = (k : Int) - 52 := by omega
    have hnat : ((k : Int) - 52 + 52).toNat = k := by omega
    have hhigh : (if (k : Int) - 52 + 52 ≥ 0 then num < den * twoTo ((k : Int) - 52 + 52).toNat
        else num * twoTo (-((k : Int) - 52 + 52)).toNat < den) ↔ num < den * twoTo k := by
      rw [if_pos (by omega), hnat]
    rw [hguess]
    by_cases htoo : num < den * twoTo k
    · have hexp : (n : Int) - 52 ≤ max (-1074) ((k : Int) - 52 - 1) ↔ n < k := by omega
      rw [if_pos (hhigh.mpr htoo), hexp]
      constructor
      · intro hn
        calc den * twoTo n ≤ twoTo (den.log2 + 1) * twoTo n :=
              Nat.mul_le_mul_right _ (Nat.le_of_lt hdenHigh)
          _ = twoTo (den.log2 + 1 + n) := (twoTo_add _ _).symm
          _ ≤ twoTo num.log2 := twoTo_le_twoTo_iff.mpr (by omega)
          _ ≤ num := hnumLow
      · intro hle
        exact hmul.mp (Nat.lt_of_le_of_lt hle htoo)
    · have hexp : (n : Int) - 52 ≤ max (-1074) ((k : Int) - 52) ↔ n < k + 1 := by omega
      rw [if_neg fun h => htoo (hhigh.mp h), hexp]
      constructor
      · intro hn
        calc den * twoTo n ≤ den * twoTo k :=
              Nat.mul_le_mul_left _ (twoTo_le_twoTo_iff.mpr (Nat.le_of_lt_succ hn))
          _ ≤ num := Nat.le_of_not_lt htoo
      · intro hle
        refine hmul.mp (Nat.lt_of_le_of_lt hle ?_)
        calc num < twoTo (den.log2 + (k + 1)) := by rwa [hk] at hnumHigh
          _ = twoTo den.log2 * twoTo (k + 1) := twoTo_add _ _
          _ ≤ den * twoTo (k + 1) := Nat.mul_le_mul_right _ hdenLow

/-- What is packed is finite if its exponent, after a carry, is within range. -/
theorem isFinite_pack_iff (negative : Bool) (significand : Nat) (exponent : Int) :
    (pack negative significand exponent).isFinite = true ↔
      exponent ≤ 970 ∨ exponent = 971 ∧ significand ≠ twoTo 53 := by
  simp only [pack, greatestExponent]
  by_cases hcarry : significand = twoTo 53
  · simp only [hcarry, if_true]
    split <;> simp only [isFinite, Bool.false_eq_true, false_iff, true_iff] <;> omega
  · simp only [hcarry, if_false]
    split <;> simp only [isFinite, Bool.false_eq_true, false_iff, true_iff] <;> omega

/-- The double nearest to a quotient is finite if the quotient is below the limit. -/
theorem isFinite_ofRatio_iff {num den : Nat} (hden : den ≠ 0) (negative : Bool) :
    (ofRatio negative num den).isFinite = true ↔ num < den * limit := by
  -- All powers that count are multiples of that by which the limit falls short of one.
  have h971 : den * twoTo 971 = den * twoTo 970 * 2 := by
    rw [Nat.mul_assoc, ← twoTo_succ]
  have h1023 : den * twoTo 1023 = den * twoTo 970 * twoTo 53 := by
    rw [Nat.mul_assoc, ← twoTo_add]
  have h1024 : den * twoTo 1024 = den * twoTo 970 * twoTo 54 := by
    rw [Nat.mul_assoc, ← twoTo_add]
  have hlimit : den * limit = den * twoTo 970 * (twoTo 54 - 1) := by
    rw [limit, Nat.mul_sub, h1024, Nat.mul_sub, Nat.mul_one]
  have hpos : 0 < den * twoTo 970 := Nat.mul_pos (Nat.pos_of_ne_zero hden) (twoTo_pos 970)
  have h53 : twoTo 53 = 9007199254740992 := rfl
  have h54 : twoTo 54 = 18014398509481984 := rfl
  rw [h53] at h1023
  rw [h54] at h1024 hlimit
  by_cases hnum : num = 0
  · simp only [ofRatio, hnum, if_true, zero, isFinite, true_iff]
    omega
  · have hexp1023 := le_exponentOf_iff hnum hden 1023
    have hexp1024 := le_exponentOf_iff hnum hden 1024
    simp only [ofRatio, hnum, if_false, isFinite_pack_iff]
    by_cases hedge : exponentOf num den = 971
    · -- Only here may the significand be carried over into infinity.
      have hround : roundHalfEven num (den * twoTo 971) = twoTo 53 - 1 + 1 ↔
          den * twoTo 971 * (2 * (twoTo 53 - 1) + 1) ≤ 2 * num :=
        roundHalfEven_eq_succ_iff rfl (by omega) (by rw [h53, h971]; omega)
      have hnat : (971 : Int).toNat = 971 := rfl
      rw [hedge, if_pos (by decide), hnat]
      rw [h53] at hround ⊢
      omega
    · omega

/-- A whole number has a double if it is within the limit. -/
theorem ofInt_isOk_iff (n : Int) : (∃ x, ofInt n = .ok x) ↔ n.natAbs < limit := by
  have hfinite : (ofRatio (n < 0) n.natAbs 1).isFinite = true ↔ n.natAbs < 1 * limit :=
    isFinite_ofRatio_iff Nat.one_ne_zero _
  rw [Nat.one_mul] at hfinite
  rw [← hfinite, ofInt, finiteOr]
  split <;> simp_all

/-- A quotient has a double if it is within the limit. -/
theorem quotient_isOk_iff (num : Int) {den : Nat} (hden : den ≠ 0) :
    (∃ x, quotient num den = .ok x) ↔ num.natAbs < den * limit := by
  rw [← isFinite_ofRatio_iff hden (num < 0), quotient, finiteOr]
  split <;> simp_all

/-- A quotient that has a double is rounded to it. -/
theorem ofRatio_of_quotient {num : Int} {den : Nat} {x : Binary64} (h : quotient num den = .ok x) :
    ofRatio (num < 0) num.natAbs den = x := by
  rw [quotient, finiteOr] at h
  split at h
  · exact Except.ok.inj h
  · cases h

/-- A double of a quotient is finite. -/
theorem isFinite_of_quotient {num : Int} {den : Nat} {x : Binary64}
    (h : quotient num den = .ok x) : x.isFinite = true := by
  rw [quotient, finiteOr] at h
  split at h
  · next hfinite =>
    cases h
    exact hfinite
  · cases h

/-- A finite double has a whole number nearest to it. -/
theorem round_of_isFinite {x : Binary64} (h : x.isFinite = true) : ∃ n, x.round = .ok n := by
  cases x with
  | finite s m e => exact ⟨_, rfl⟩
  | nan => cases h
  | infinite s => cases h

/-- What packing makes of a significand and an exponent. -/
theorem pack_eq_finite {negative s : Bool} {significand m : Nat} {exponent e : Int}
    (h : pack negative significand exponent = .finite s m e) :
    e ≤ 971 ∧ (significand ≠ twoTo 53 ∧ m = significand ∧ e = exponent ∨
      m = twoTo 52 ∧ e = exponent + 1) := by
  simp only [pack, greatestExponent] at h
  -- A significand that is rounded up to the next power is carried into the exponent.
  by_cases hcarry : significand = twoTo 53
  · simp only [hcarry, if_true] at h
    split at h
    · cases h
    · obtain ⟨-, rfl, rfl⟩ := finite.inj h
      exact ⟨by omega, .inr ⟨rfl, rfl⟩⟩
  · simp only [hcarry, if_false] at h
    split at h
    · cases h
    · obtain ⟨-, rfl, rfl⟩ := finite.inj h
      exact ⟨by omega, .inl ⟨hcarry, rfl, rfl⟩⟩

/-- The significand of a quotient has at most 53 bits, and below a unit the quotient is small. -/
theorem bounds_of_ofRatio {negative s : Bool} {num den m : Nat} {e : Int} (hden : den ≠ 0)
    (h : ofRatio negative num den = .finite s m e) :
    0 ≤ e ∧ e ≤ 971 ∧ m < twoTo 53 ∨ e < 0 ∧ m ≤ twoTo 52 * twoTo (-e).toNat := by
  by_cases hnum : num = 0
  · rw [ofRatio, if_pos hnum] at h
    cases h
    exact .inr ⟨by decide, Nat.zero_le _⟩
  · rw [ofRatio, if_neg hnum] at h
    obtain ⟨hle, hpack⟩ := pack_eq_finite h
    have h52 : twoTo 52 < twoTo 53 := twoTo_lt_twoTo_iff.mpr (by decide)
    rcases Int.lt_or_le (exponentOf num den) 0 with hneg | hpos
    · -- The quotient is scaled up before it is rounded.
      have hnot : ¬ (0 : Int) ≤ exponentOf num den := by omega
      rw [if_neg hnot] at hpack
      have hsmall : num < den * twoTo 52 := by
        have := le_exponentOf_iff hnum hden 52
        omega
      have hround : roundHalfEven (num * twoTo (-exponentOf num den).toNat) den ≤
          twoTo 52 * twoTo (-exponentOf num den).toNat := by
        refine roundHalfEven_le_of_lt ?_
        rw [← Nat.mul_assoc]
        exact Nat.mul_lt_mul_of_pos_right hsmall (twoTo_pos _)
      rcases hpack with ⟨-, rfl, rfl⟩ | ⟨rfl, rfl⟩
      · exact .inr ⟨hneg, hround⟩
      · rcases Int.lt_or_le (exponentOf num den + 1) 0 with hlt | hge
        · exact .inr ⟨hlt, Nat.le_mul_of_pos_right _ (twoTo_pos _)⟩
        · exact .inl ⟨hge, hle, h52⟩
    · -- The quotient is scaled down, to 53 bits.
      rw [if_pos hpos] at hpack
      obtain ⟨k, hk⟩ := Int.eq_ofNat_of_zero_le hpos
      have hsmall : num < den * twoTo (k + 53) := by
        have := le_exponentOf_iff hnum hden (k + 53)
        omega
      have hround : roundHalfEven num (den * twoTo (exponentOf num den).toNat) ≤ twoTo 53 := by
        refine roundHalfEven_le_of_lt ?_
        rwa [hk, Int.toNat_natCast, Nat.mul_assoc, ← twoTo_add]
      rcases hpack with ⟨hne, rfl, rfl⟩ | ⟨rfl, rfl⟩
      · exact .inl ⟨hpos, hle, Nat.lt_of_le_of_ne hround hne⟩
      · exact .inl ⟨by omega, hle, h52⟩

/-- The whole number nearest to a double of a quotient has a double itself. -/
theorem natAbs_round_lt_limit {num : Int} {den : Nat} (hden : den ≠ 0) {x : Binary64} {n : Int}
    (hx : quotient num den = .ok x) (hn : x.round = .ok n) : n.natAbs < limit := by
  have hratio := ofRatio_of_quotient hx
  cases x with
  | nan => cases hn
  | infinite s => cases hn
  | finite s m e =>
    have hsize : n.natAbs =
        if e ≥ 0 then m * twoTo e.toNat else roundHalfEven m (twoTo (-e).toNat) := by
      cases hn
      split <;> simp only [Int.natAbs_neg, Int.natAbs_natCast]
    rw [hsize]
    -- Above the integers the value is exact, and below them rounding adds one at most.
    rcases bounds_of_ofRatio hden hratio with ⟨hge, hle, hm⟩ | ⟨hlt, hm⟩
    · rw [if_pos hge]
      exact mul_twoTo_lt_limit hm (by omega)
    · rw [if_neg (by omega)]
      have hdiv : m / twoTo (-e).toNat ≤ twoTo 52 := Nat.div_le_of_le_mul (by rwa [Nat.mul_comm])
      have hround := roundHalfEven_le_succ m (twoTo (-e).toNat)
      calc roundHalfEven m (twoTo (-e).toNat) ≤ twoTo 52 + 1 := by omega
        _ = (twoTo 52 + 1) * twoTo 0 := (Nat.mul_one _).symm
        _ < limit := mul_twoTo_lt_limit (by decide) (Nat.zero_le 971)

/-! ## Products -/

/-- A scaled number has a finite double nearest to it if it is below the limit. -/
theorem isFinite_ofScaled_iff (negative : Bool) (significand : Nat) (exponent : Int) :
    (ofScaled negative significand exponent).isFinite = true ↔
      significand * twoTo exponent.toNat < twoTo (-exponent).toNat * limit := by
  have hone : twoTo 0 = 1 := rfl
  unfold ofScaled
  split
  · rw [isFinite_ofRatio_iff Nat.one_ne_zero, show (-exponent).toNat = 0 by omega, hone]
  · rw [isFinite_ofRatio_iff (Nat.ne_of_gt (twoTo_pos _)), show exponent.toNat = 0 by omega, hone,
      Nat.mul_one]

/-- A double of a quotient is below the limit. -/
theorem lt_limit_of_ofRatio {negative s : Bool} {num den m : Nat} {e : Int} (hden : den ≠ 0)
    (h : ofRatio negative num den = .finite s m e) :
    m * twoTo e.toNat < twoTo (-e).toNat * limit := by
  have hone : twoTo 0 = 1 := rfl
  rcases bounds_of_ofRatio hden h with ⟨hge, hle, hm⟩ | ⟨hlt, hm⟩
  · rw [show (-e).toNat = 0 by omega, hone, Nat.one_mul]
    exact mul_twoTo_lt_limit hm (by omega)
  · rw [show e.toNat = 0 by omega, Nat.mul_comm (twoTo (-e).toNat)]
    have h52 : twoTo 52 < limit := by
      have h := mul_twoTo_lt_limit (m := twoTo 52) (e := 0) (by decide) (Nat.zero_le 971)
      rwa [hone, Nat.mul_one] at h
    calc m * twoTo 0 = m := Nat.mul_one m
      _ ≤ twoTo 52 * twoTo (-e).toNat := hm
      _ < limit * twoTo (-e).toNat := Nat.mul_lt_mul_of_pos_right h52 (twoTo_pos _)

/-- A part of what is below a bound is below it as well, at whatever exponents the two are
written. -/
theorem mul_part_lt {m part places a b c d bound : Nat} (hpart : part ≤ twoTo places)
    (hexp : places + b + c = d + a) (h : m * twoTo a < twoTo b * bound) :
    m * part * twoTo c < twoTo d * bound := by
  -- Both sides are compared after scaling by the powers by which the exponents differ.
  apply Nat.lt_of_mul_lt_mul_left (a := twoTo (places + b))
  calc twoTo (places + b) * (m * part * twoTo c)
      = m * part * (twoTo d * twoTo a) := by
        rw [Nat.mul_left_comm, ← twoTo_add (places + b), hexp, twoTo_add]
    _ = part * (twoTo d * (m * twoTo a)) := by ac_rfl
    _ ≤ twoTo places * (twoTo d * (m * twoTo a)) := Nat.mul_le_mul_right _ hpart
    _ < twoTo places * (twoTo d * (twoTo b * bound)) :=
        Nat.mul_lt_mul_of_pos_left (Nat.mul_lt_mul_of_pos_left h (twoTo_pos d)) (twoTo_pos places)
    _ = twoTo (places + b) * (twoTo d * bound) := by
        rw [twoTo_add]
        ac_rfl

/-- A part of a double of a quotient is finite. -/
theorem isFinite_mul_part {num : Int} {den part places : Nat} {x : Binary64} (hden : den ≠ 0)
    (hpart : part ≤ twoTo places) (h : quotient num den = .ok x) :
    (x * .finite false part (-places)).isFinite = true := by
  have hratio := ofRatio_of_quotient h
  rcases x with _ | s | ⟨s, m, e⟩
  · cases isFinite_of_quotient h
  · cases isFinite_of_quotient h
  · apply (isFinite_ofScaled_iff _ _ _).mpr
    exact mul_part_lt hpart (by omega) (lt_limit_of_ofRatio hden hratio)

/-! ## Zeros -/

/-- A zero times a power of two is a zero. -/
theorem ofScaled_zero (negative : Bool) (exponent : Int) :
    ofScaled negative 0 exponent = zero negative := by
  unfold ofScaled
  rw [Nat.zero_mul]
  split
  · rfl
  · rfl

/-- A zero is nearest to the whole number zero, whatever its sign. -/
theorem round_zero (negative : Bool) : (zero negative).round = .ok 0 := by
  cases negative <;> simp [zero, round, leastExponent]

/-- A zero is not above zero and not below it, whatever its sign. -/
theorem floor_zero (negative : Bool) : (zero negative).floor = .ok 0 := by
  cases negative <;> rfl

/-- Nothing times a finite double is nothing. -/
theorem exists_mul_eq_zero {x : Binary64} (h : x.isFinite = true) :
    ∃ negative, mul (zero false) x = zero negative := by
  rcases x with _ | _ | ⟨negative, significand, exponent⟩
  · cases h
  · cases h
  · refine ⟨false != negative, ?_⟩
    change ofScaled _ (0 * significand) _ = _
    rw [Nat.zero_mul]
    exact ofScaled_zero _ _

end Binary64

end Treasury.Numeric
