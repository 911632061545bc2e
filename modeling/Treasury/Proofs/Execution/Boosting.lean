import Treasury.Proofs.Execution.Confinement
import Treasury.Proofs.Execution.Pricing

/-!
# Boosts

A boost takes a treasure up the ladder from where it was boosted to before, and from the grade of
its definition if it was not. The ladder has a top, and climbing to it in several goes is the same
as climbing at once, so of all boosts of a card only the number of steps counts.

* `Grade.raise`: what a card is boosted to after it climbs some steps. `Grade.raise_raise` is why
  boosts add up.
* `Assignment.stepsOf`: by how many steps an effect boosts a card, which is none for most.
* `Assignment.grade?_execute`: every effect raises a card by that number, and by
  `Assignment.worthOf_le_execute` none makes it worth less.
* `Assignment.exec_execute_settle_single`: what is paid for a card.
-/

namespace Treasury

namespace Grade

/-- Climbing on is climbing more steps. -/
theorem climb_climb (g : Grade) (m n : Nat) : (g.climb m).climb n = g.climb (m + n) := by
  refine place_injective ?_
  rw [place_climb, place_climb, place_climb]
  omega

/-- Nothing is worth less for climbing. -/
theorem worth_le_worth_climb (g : Grade) (n : Nat) : g.worth ≤ (g.climb n).worth := by
  have hle := g.place_le
  refine worth_le_of_place_le ?_
  rw [place_climb]
  omega

/-- What a card of a grade is boosted to after it climbs some steps from the boost that it had. -/
def raise (g : Grade) (boost : Option Grade) (steps : Nat) : Option Grade :=
  if steps = 0 then boost else some ((boost.getD g).climb steps)

@[simp]
theorem raise_zero (g : Grade) (boost : Option Grade) : g.raise boost 0 = boost := rfl

theorem raise_of_pos (g : Grade) (boost : Option Grade) {n : Nat} (h : 0 < n) :
    g.raise boost n = some ((boost.getD g).climb n) := if_neg h.ne'

/-- With or without a boost, the grade of the card climbs. -/
theorem getD_raise (g : Grade) (boost : Option Grade) (n : Nat) :
    (g.raise boost n).getD g = (boost.getD g).climb n := by
  rcases Nat.eq_zero_or_pos n with rfl | hn
  · rfl
  · rw [raise_of_pos g boost hn, Option.getD_some]

/-- Boosts add up. -/
theorem raise_raise (g : Grade) (boost : Option Grade) (m n : Nat) :
    g.raise (g.raise boost m) n = g.raise boost (m + n) := by
  rcases Nat.eq_zero_or_pos n with rfl | hn
  · rfl
  · rw [raise_of_pos g _ hn, raise_of_pos g _ (Nat.add_pos_right m hn), getD_raise, climb_climb]

end Grade

variable {r : Rules} {c : Card} {g : Grade}

/-! ## Treasures and what they are worth -/

namespace Rules

theorem isTreasure_of_treasureGrade? (h : r.treasureGrade? c = some g) :
    Deck.isTreasure r c = true := by
  by_contra hnot
  rw [treasureGrade?_of_not_isTreasure (Bool.eq_false_iff.mpr hnot)] at h
  cases h

/-- A treasure has the grade that it is boosted to, or else its own. -/
theorem gradeOf?_of_treasureGrade? (h : r.treasureGrade? c = some g) (boosts : Boosts) :
    r.gradeOf? boosts c = some ((boosts.grade? c).getD g) := by
  unfold gradeOf?
  cases boosts.grade? c with
  | some boost => rfl
  | none =>
    unfold treasureGrade? at h
    split at h
    · next d hd =>
      split at h
      · rw [hd]
        exact h
      · cases h
    · cases h

theorem worthOf_of_treasureGrade? (h : r.treasureGrade? c = some g) (boosts : Boosts) :
    r.worthOf boosts c = ((boosts.grade? c).getD g).worth := by
  rw [worthOf_eq, gradeOf?_of_treasureGrade? h]
  rfl

/-- Settling a treasure answers with what it is worth. -/
theorem exec_settle_single (h : r.treasureGrade? c = some g) (hin : Service.settle ∉ r.outOfOrder)
    (t : Table) : (exec (Deck.settle r [c]) t).1 = .ok (r.worthOf t.game.boosts c) := by
  rw [exec_settle_fst hin, List.filter_singleton, isTreasure_of_treasureGrade? h]
  exact congrArg Except.ok (Int.add_zero _)

end Rules

/-- What a gain comes to under the modifiers is added to the gold. -/
theorem Economy.exec_addGold (hin : Service.addGold ∉ r.outOfOrder) {t : Table} {amount paid : Int}
    (h : modifiedGain t.game amount = .ok paid) :
    exec (addGold r amount true) t = (.ok paid, credited t paid) := by
  unfold addGold
  rw [Play.exec_serve, if_neg hin]
  dsimp only
  rw [if_pos rfl, Play.exec_game_bind, exec_bind, Play.exec_calculate, h]
  rfl

/-! ## Effects -/

namespace Assignment

/-- By how many steps an effect boosts a card: each time that it is given the card as a target, by
its magnitude, or by one step if that is not positive. -/
def stepsOf (a : Assignment) (c : Card) : Nat :=
  if a.effect.kind = .known .boostTreasure then a.targets.count c * (a.magnitudeOr 1).toNat else 0

/-- An effect boosts a card if it is one of its targets. -/
def Hits (a : Assignment) (c : Card) : Prop :=
  a.effect.kind = .known .boostTreasure ∧ c ∈ a.targets

/-- A target with the serial number of a card is that card, as serial numbers are there to tell the
physical copies apart. -/
def Knows (a : Assignment) (c : Card) : Prop := ∀ d ∈ a.targets, d.serial = c.serial → d = c

/-- An effect boosts a card by some steps if and only if it hits it. -/
theorem stepsOf_pos_iff {a : Assignment} : 0 < a.stepsOf c ↔ a.Hits c := by
  have hsteps : 0 < (a.magnitudeOr 1).toNat := Int.lt_toNat.mpr (a.magnitudeOr_pos Int.one_pos)
  unfold stepsOf Hits
  split
  · next hkind => rw [Nat.mul_pos_iff_of_pos_right hsteps, List.count_pos_iff, and_iff_right hkind]
  · next hkind => exact iff_of_false (lt_irrefl 0) fun h => hkind h.1

/-- Boosting treasures raises a treasure as often as it is among them. -/
theorem grade?_boosted (hgrade : r.treasureGrade? c = some g) {n : Nat} (hn : 0 < n)
    {cs : List Card} (hcs : ∀ d ∈ cs, d.serial = c.serial → d = c) (b : Boosts) :
    (boosted r n cs b).2.grade? c = g.raise (b.grade? c) (cs.count c * n) := by
  induction cs generalizing b with
  | nil => rw [List.count_nil, Nat.zero_mul, Grade.raise_zero]; rfl
  | cons d rest ih =>
    obtain ⟨hfirst, hrest⟩ := List.forall_mem_cons.mp hcs
    -- Only a boost of this very card is seen in its grade.
    by_cases hd : d = c
    · subst hd
      have hboost : (b.boost d (((b.grade? d).getD g).climb n)).grade? d =
          g.raise (b.grade? d) n := by
        rw [Boosts.grade?_boost_self, Grade.raise_of_pos g _ hn]
      unfold boosted
      rw [hgrade]
      change (boosted r n rest _).2.grade? d = _
      rw [ih hrest, hboost, Grade.raise_raise, List.count_cons_self]
      rw [Nat.succ_mul, Nat.add_comm]
    · have hserial : c.serial ≠ d.serial := fun h => hd (hfirst h.symm)
      rw [List.count_cons_of_ne hd]
      unfold boosted
      split
      · exact ih hrest b
      · exact (ih hrest _).trans (by rw [Boosts.grade?_boost_of_ne hserial])

/-- Every effect raises a treasure by the steps that it boosts it by, and none leaves its boost
otherwise. -/
theorem grade?_execute (hgrade : r.treasureGrade? c = some g) {a : Assignment} (ha : a.Knows c)
    (t : Table) : (exec (a.execute r) t).2.game.boosts.grade? c =
      g.raise (t.game.boosts.grade? c) (a.stepsOf c) := by
  by_cases hkind : a.effect.kind = .known .boostTreasure
  · have hsteps : 0 < (a.magnitudeOr 1).toNat := Int.lt_toNat.mpr (a.magnitudeOr_pos Int.one_pos)
    rw [execute_of_known hkind, stepsOf, if_pos hkind]
    exact grade?_boosted hgrade hsteps ha t.game.boosts
  · have hnone : ∀ kind ∈ Part.boosts.changedBy, a.effect.kind ≠ .known kind := by
      intro kind hmem
      rwa [List.mem_singleton.mp hmem]
    obtain hsame | ⟨kind, hmem, hknown⟩ := (a.confined_execute r t).1 .boosts
    · rw [stepsOf, if_neg hkind, Grade.raise_zero]
      exact congrArg (Boosts.grade? · c) hsame
    · exact absurd hknown (hnone kind hmem)

/-- No effect makes a treasure worth less. -/
theorem worthOf_le_execute (hgrade : r.treasureGrade? c = some g) {a : Assignment} (ha : a.Knows c)
    (t : Table) :
    r.worthOf t.game.boosts c ≤ r.worthOf (exec (a.execute r) t).2.game.boosts c := by
  rw [Rules.worthOf_of_treasureGrade? hgrade, Rules.worthOf_of_treasureGrade? hgrade,
    grade?_execute hgrade ha, Grade.getD_raise]
  exact Grade.worth_le_worth_climb _ _

/-- Settling a treasure pays what it is worth, as a gain. -/
theorem exec_execute_settle_single (hgrade : r.treasureGrade? c = some g)
    (hsettle : Service.settle ∉ r.outOfOrder) (hgain : Service.addGold ∉ r.outOfOrder)
    {a : Assignment} (hkind : a.effect.kind = .known .settleCard) (htargets : a.targets = [c])
    {t : Table} {paid : Int}
    (hpaid : Economy.modifiedGain t.game (r.worthOf t.game.boosts c) = .ok paid) :
    ∃ u, exec (a.execute r) t = (.ok (a.done 1 (r.worthOf t.game.boosts c)), u) ∧
      u.game.gold = t.game.gold + paid := by
  have hpos : 0 < r.worthOf t.game.boosts c := by
    rw [Rules.worthOf_of_treasureGrade? hgrade]
    exact Grade.worth_pos _
  -- The card is laid away first, which leaves what the gain is modified by.
  obtain ⟨z, hdone⟩ : ∃ z, exec (Deck.settle r [c]) t =
      (.ok (r.worthOf t.game.boosts c), { t with game := { t.game with zones := z } }) := by
    refine ⟨(Deck.settled r t.game.boosts [c] t.game.zones).2, Prod.ext ?_ ?_⟩
    · exact Rules.exec_settle_single hgrade hsettle t
    · rw [Deck.settle, Play.exec_serve, if_neg hsettle, Play.exec_makeFromGame]
  have hpay := Economy.exec_addGold hgain (t := { t with game := { t.game with zones := z } }) hpaid
  refine ⟨Economy.credited { t with game := { t.game with zones := z } } paid, ?_, rfl⟩
  rw [execute_of_known hkind]
  change exec (a.settle r) t = _
  unfold settle
  rw [htargets, exec_ite, if_neg (by simp), exec_bind, hdone]
  dsimp only
  rw [if_pos hpos, exec_bind, exec_discard, hpay]
  rfl

end Assignment

end Treasury
