import Treasury.Proofs.Numeric.Percentage
import Treasury.Proofs.Play
import Treasury.Execution.Execute

/-!
# Percentages of gold that are lost

One kind of effect takes a percentage of the gold held and reports how much that is. The percentage
is worked out in doubles, and it is reported as it is worked out, whether or not it is taken.

* `Assignment.report`: what an activation is told of an effect, also if it comes to no result.
* `Assignment.exec_spendGoldPercent`: what the effect does, in one equation.
* `Assignment.taken_inRange_iff`: it takes what it should exactly if it does not take all of a hoard
  that is no double.
* `Assignment.taken_reported_iff`: it takes what it reports exactly if the percentage does not come
  out below zero.
* `Assignment.spendGoldPercent_honest_iff`: both of them together.
-/

namespace Treasury

open Numeric (limit)
open Numeric.Binary64 (rounded IsDouble)

namespace Assignment

/-- What an activation is told of an effect: its result, or a failed one if it has none. -/
def report (a : Assignment) (r : Rules) (t : Table) : EffectResult :=
  (exec (a.execute r) t).1.toOption.getD a.failed

variable {r : Rules} (a : Assignment) (t : Table)

/-- How much of the gold is taken by an effect. -/
def taken (a : Assignment) (r : Rules) (t : Table) : Int :=
  t.game.gold - (exec (a.execute r) t).2.game.gold

section Percentages

variable (hr : r.outOfOrder = []) (hkind : a.effect.kind = .known .spendGoldPercent)

include hr hkind

/-- A percentage that is worked out is reported, and taken if it is positive. -/
theorem exec_spendGoldPercent :
    exec (a.execute r) t =
      match percentOf t.game.gold a.magnitude with
      | .error e => (.error (.number e), t)
      | .ok loss => (.ok (a.done a.targets.length loss),
          { t with game := { t.game with gold := t.game.gold - max 0 loss } }) := by
  rw [execute_of_known hkind]
  unfold executeKind spendGoldPercent Economy.subtractGold
  rw [Play.exec_game_bind, exec_bind, Play.exec_calculate]
  -- Nothing is taken for a loss that is not positive, which is what the maximum says.
  rcases percentOf t.game.gold a.magnitude with e | loss
  · rfl
  · change exec (if loss > 0 then _ else _) t = _
    split
    · next hpos =>
      dsimp only
      rw [exec_bind, Play.exec_serve, if_neg (hr ▸ List.not_mem_nil),
        Int.max_eq_right (Int.le_of_lt hpos)]
      rfl
    · next hnot =>
      dsimp only
      rw [Int.max_eq_left (Int.not_lt.mp hnot), Int.sub_zero]
      rfl

/-- The percentage that is worked out is reported, and what is positive of it is taken. Without one
nothing is reported and nothing is taken. -/
theorem report_and_taken :
    (a.report r t).value = (percentOf t.game.gold a.magnitude).toOption.getD 0 ∧
      a.taken r t = max 0 ((percentOf t.game.gold a.magnitude).toOption.getD 0) := by
  unfold report taken
  rw [exec_spendGoldPercent a t hr hkind]
  rcases percentOf t.game.gold a.magnitude with e | loss
  · exact ⟨rfl, Int.sub_self _⟩
  · refine ⟨rfl, ?_⟩
    change t.game.gold - (t.game.gold - max 0 loss) = max 0 loss
    omega

/-- What is taken is what is reported exactly if the percentage does not come out below zero. It
does if there are more than fifty hundredths below zero, unless they are too many to be worked
out. -/
theorem taken_reported_iff :
    (a.report r t).value = a.taken r t ↔
      -50 ≤ t.game.gold * a.magnitude ∨ 100 * limit ≤ (t.game.gold * a.magnitude).natAbs := by
  obtain ⟨hvalue, htaken⟩ := report_and_taken a t hr hkind
  rw [hvalue, htaken, percentOf_getD]
  generalize t.game.gold * a.magnitude = hundredths
  by_cases hrange : hundredths.natAbs < 100 * limit
  · rw [if_pos hrange, or_iff_left (Nat.not_le.mpr hrange)]
    have hpos := Numeric.Binary64.rounded_hundredths_pos_iff hundredths.natAbs
    split <;> omega
  · rw [if_neg hrange]
    exact iff_of_true rfl (.inr (Nat.not_lt.mp hrange))

/-- Of gold that there is a percentage takes no more than there is, and all of it if it is the
whole, exactly if it is not the whole or the gold is a double. -/
theorem taken_inRange_iff (hgold : 0 ≤ t.game.gold) (hlow : 0 ≤ a.magnitude)
    (hhigh : a.magnitude ≤ 100) :
    (0 ≤ a.taken r t ∧ a.taken r t ≤ t.game.gold ∧
        (a.magnitude = 100 → a.taken r t = t.game.gold)) ↔
      (a.magnitude = 100 → IsDouble t.game.gold.toNat) := by
  obtain ⟨-, htaken⟩ := report_and_taken a t hr hkind
  rw [htaken, percentOf_getD]
  -- With both signs out of the way this is about natural numbers.
  obtain ⟨gold, hgold⟩ := Int.eq_ofNat_of_zero_le hgold
  obtain ⟨percent, hpercent⟩ := Int.eq_ofNat_of_zero_le hlow
  rw [hpercent] at hhigh
  rw [hgold, hpercent, ← Int.natCast_mul, Int.natAbs_natCast, Int.toNat_natCast,
    if_neg (Int.not_lt.mpr (Int.natCast_nonneg _))]
  by_cases hrange : gold * percent < 100 * limit
  · rw [if_pos hrange]
    rw [Int.max_eq_right (Int.natCast_nonneg _)]
    rcases Nat.lt_or_ge percent 100 with hpart | hwhole
    · have hle := Numeric.Binary64.rounded_le_of_percent (n := gold) hpart
      exact iff_of_true ⟨by omega, by omega, by omega⟩ (by omega)
    · obtain rfl : percent = 100 := by omega
      have hdouble : rounded (gold * 100) 100 = gold ↔ IsDouble gold :=
        Numeric.Binary64.rounded_mul_eq_iff (by decide) (by omega)
      rw [← hdouble]
      omega
  · rw [if_neg hrange]
    rcases Nat.lt_or_ge percent 100 with hpart | hwhole
    · exact iff_of_true ⟨by omega, by omega, by omega⟩ (by omega)
    · obtain rfl : percent = 100 := by omega
      have hlimit : ¬ gold < limit := by omega
      have hpos : 0 < limit := by decide +kernel
      refine iff_of_false ?_ fun h => hlimit (h rfl).lt_limit
      omega

/-- The effect is honest about gold in two ways. Of gold that there is it takes a part between
nothing and all, and all of it for a hundred percent, exactly if gold of which it takes all is a
double. And whatever the gold and the percentage are, it takes what it reports exactly if their
product is not below `-50`, or is too large to have a percentage. -/
theorem spendGoldPercent_honest_iff :
    let gold := t.game.gold
    let left := (exec (a.execute r) t).2.game.gold
    (0 ≤ gold → 0 ≤ a.magnitude → a.magnitude ≤ 100 →
      ((0 ≤ gold - left ∧ gold - left ≤ gold ∧ 0 ≤ left ∧ (a.magnitude = 100 → left = 0)) ↔
        (a.magnitude = 100 → IsDouble gold.toNat))) ∧
    ((a.report r t).value = gold - left ↔
      -50 ≤ gold * a.magnitude ∨ 100 * limit ≤ (gold * a.magnitude).natAbs) := by
  intro gold left
  refine ⟨fun hgold hlow hhigh => ?_, taken_reported_iff a t hr hkind⟩
  rw [← taken_inRange_iff a t hr hkind hgold hlow hhigh]
  have htaken : a.taken r t = gold - left := rfl
  rw [htaken]
  constructor
  · rintro ⟨hnonneg, hle, -, hwhole⟩
    exact ⟨hnonneg, hle, fun h => by rw [hwhole h, Int.sub_zero]⟩
  · rintro ⟨hnonneg, hle, hwhole⟩
    exact ⟨hnonneg, hle, by omega, fun h => by have := hwhole h; omega⟩

end Percentages

/-- Of ten pieces of gold thirty percent are three, which are taken and reported. -/
theorem spendGoldPercent_honest_of_thirty :
    let r : Rules := {}
    let t : Table := { game := { gold := 10 }, dice := { twister := { words := #[], used := 0 } } }
    let a : Assignment := { effect := { kind := .known .spendGoldPercent }, magnitude := 30 }
    let left := (exec (a.execute r) t).2.game.gold
    r.outOfOrder = [] ∧ a.effect.kind = .known .spendGoldPercent ∧ left = 7 ∧
      (0 ≤ 10 - left ∧ 10 - left ≤ 10 ∧ 0 ≤ left ∧ (a.magnitude = 100 → left = 0)) ∧
      (a.report r t).value = 10 - left := by
  intro r t a left
  have hhonest := spendGoldPercent_honest_iff (r := r) a t rfl rfl
  refine ⟨rfl, rfl, by decide +kernel, ?_, hhonest.2.mpr (.inl (by decide))⟩
  exact (hhonest.1 (by decide) (by decide) (by decide)).mpr fun h => absurd h (by decide)

/-- All of a hoard of `2 ^ 53 + 3` pieces is one piece more than there are. Minus fifty percent of
ten pieces are reported as minus five, and no gold is gained. -/
theorem not_honest_of_hoard :
    let r : Rules := {}
    let held (gold : Int) : Table :=
      { game := { gold }, dice := { twister := { words := #[], used := 0 } } }
    let share (magnitude : Int) : Assignment :=
      { effect := { kind := .known .spendGoldPercent }, magnitude }
    (exec ((share 100).execute r) (held 9007199254740995)).2.game.gold = -1 ∧
      ((share 100).report r (held 9007199254740995)).value = 9007199254740996 ∧
      (exec ((share (-50)).execute r) (held 10)).2.game.gold = 10 ∧
      ((share (-50)).report r (held 10)).value = -5 := by
  decide +kernel

end Assignment

end Treasury
