import Treasury.Proofs.Activation.Direct
import Treasury.Proofs.Numeric.Range

/-!
# Where an activation fails

An effect that goes wrong while it is carried out counts as a failed one. But the engine also works
out magnitudes and collects targets, and what goes wrong there ends the call. This module says
exactly where that is.

* `Effect.magnitude_fails_iff`: a magnitude fails if it is computed and its base is beyond the range
  of doubles.
* `Effect.autoTargets_fails_iff`: targets fail if a negative number of them is to be picked at
  random from a hand that is not empty.
* `Direct.interpret_fails_iff` and `Direct.activate_fails_iff`: an activation fails if it comes to
  such an effect.
-/

namespace Treasury

open Numeric (Binary64 NumberError limit)

/-- A base is scaled if it has a double, whatever it is scaled by. -/
theorem ValueSource.scaled_isOk_iff (base : Int) (multiplier : Binary64) :
    (∃ n, scaled base multiplier = .ok n) ↔ base.natAbs < limit := by
  rw [← Binary64.ofInt_isOk_iff]
  unfold scaled
  rcases Binary64.ofInt base with e | x
  · constructor <;> rintro ⟨_, h⟩ <;> cases h
  · refine ⟨fun _ => ⟨x, rfl⟩, fun _ => ?_⟩
    change ∃ n, (if (x * multiplier).isFinite then (x * multiplier).round else .ok 0) = .ok n
    split
    -- A product beyond the range counts as nothing, so only the base can be at fault.
    · next h => exact Binary64.round_of_isFinite h
    · exact ⟨0, rfl⟩

/-- A percentage is worked out if its quotient has a double, and it has a double then as well. -/
theorem percentOf_isOk_iff (amount percent : Int) :
    (∃ n, percentOf amount percent = .ok n ∧ n.natAbs < limit) ↔
      (amount * percent).natAbs < 100 * limit := by
  rw [← Binary64.quotient_isOk_iff _ (by decide)]
  unfold percentOf
  rcases hx : Binary64.quotient (amount * percent) 100 with e | x
  · constructor
    · rintro ⟨_, h, -⟩
      cases h
    · rintro ⟨_, h⟩
      cases h
  · refine ⟨fun _ => ⟨x, rfl⟩, fun _ => ?_⟩
    obtain ⟨n, hn⟩ := Binary64.round_of_isFinite (Binary64.isFinite_of_quotient hx)
    exact ⟨n, hn, Binary64.natAbs_round_lt_limit (by decide) hx hn⟩

/-- The base of a source, as it is read or rolled, is beyond the range of doubles. -/
def ValueSource.OutOfRange (s : ValueSource) (r : Rules) (results : ResultStack)
    (targets : List Card) (t : Table) : Prop :=
  if s.kind = .known .currentGoldPercent then 100 * limit ≤ (t.game.gold * s.base).natAbs
  else ∃ base, (exec (s.baseResult r results targets) t).1 = .ok base ∧ limit ≤ base.natAbs

/-- The magnitude of an effect is computed from a base beyond the range of doubles. -/
def Effect.Unmeasurable (e : Effect) (r : Rules) (results : ResultStack) (targets : List Card)
    (t : Table) : Prop :=
  ∃ s, e.dynamic = some s ∧ s.isFixed = false ∧ s.OutOfRange r results targets t

/-- A negative number of cards is to be picked at random, and there are some to pick from. -/
def Effect.Unpickable (e : Effect) (g : GameState) : Prop :=
  e.target = .random ∧ e.maxTargets < 0 ∧ g.zones.hand ≠ []

/-- A base is read or rolled in any case, unless it is a percentage. -/
theorem ValueSource.not_fails_baseResult {s : ValueSource}
    (h : s.kind ≠ .known .currentGoldPercent) (r : Rules) (results : ResultStack)
    (targets : List Card) (t : Table) : ¬ Fails (s.baseResult r results targets) t := by
  unfold baseResult Fails
  rw [Play.exec_game_bind]
  split
  -- Of all kinds the percentage alone is calculated; the others are read or rolled.
  case h_6 hkind => exact absurd hkind h
  case h_12 => exact Play.not_fails_throwDice _ t
  case h_13 =>
    split
    · exact not_fails_pure _ t
    · exact Play.not_fails_throwDice _ t
  all_goals exact not_fails_pure _ t

/-- A computed magnitude fails if its base is beyond the range of doubles. -/
theorem ValueSource.resolve_fails_iff (s : ValueSource) (r : Rules) (results : ResultStack)
    (targets : List Card) (t : Table) :
    Fails (s.resolve r results targets) t ↔ s.OutOfRange r results targets t := by
  unfold resolve OutOfRange
  rw [fails_bind_iff]
  simp only [Play.fails_calculate_iff, scaled_isOk_iff, Nat.not_lt]
  -- A percentage is worked out in doubles twice; all other bases are read or rolled as they are.
  by_cases hkind : s.kind = .known .currentGoldPercent
  · rw [if_pos hkind]
    have hbase : exec (s.baseResult r results targets) t =
        ((percentOf t.game.gold s.base).mapError .number, t) := by
      simp only [baseResult, hkind, Play.exec_game_bind, Play.exec_calculate]
    have hpercent := percentOf_isOk_iff t.game.gold s.base
    unfold Fails
    rw [hbase, ← Nat.not_lt, ← hpercent]
    rcases percentOf t.game.gold s.base with e | n
    · refine ⟨fun _ h => ?_, fun _ => .inl ⟨_, rfl⟩⟩
      obtain ⟨_, h, -⟩ := h
      cases h
    · constructor
      · rintro (⟨_, h⟩ | hn)
        · cases h
        · rintro ⟨_, h, hlt⟩
          cases h
          exact absurd hlt (Nat.not_lt.mpr hn)
      · intro h
        exact .inr (Nat.not_lt.mp fun hlt => h ⟨n, rfl, hlt⟩)
  · rw [if_neg hkind, or_iff_right (not_fails_baseResult hkind r results targets t)]
    rcases exec (s.baseResult r results targets) t with ⟨f | n, u⟩
    · refine ⟨False.elim, ?_⟩
      rintro ⟨_, h, -⟩
      cases h
    · constructor
      · exact fun hn => ⟨n, rfl, hn⟩
      · rintro ⟨_, h, hn⟩
        cases h
        exact hn

/-- A magnitude fails if it is computed from a base beyond the range of doubles. -/
theorem Effect.magnitude_fails_iff (e : Effect) (r : Rules) (results : ResultStack)
    (targets : List Card) (t : Table) :
    Fails (e.magnitude r results targets) t ↔ e.Unmeasurable r results targets t := by
  unfold magnitude Unmeasurable
  -- Only what is read from somewhere may fail to be a number.
  rcases e.dynamic with _ | s
  · refine ⟨fun h => absurd h (not_fails_pure _ t), ?_⟩
    rintro ⟨_, h, -⟩
    cases h
  · dsimp only
    split
    · next hfixed =>
      refine ⟨fun h => absurd h (not_fails_pure _ t), ?_⟩
      rintro ⟨_, h, hnot, -⟩
      cases h
      rw [hfixed] at hnot
      cases hnot
    · next hfixed =>
      rw [s.resolve_fails_iff]
      constructor
      · exact fun h => ⟨s, rfl, Bool.eq_false_iff.mpr hfixed, h⟩
      · rintro ⟨_, h, -, hrange⟩
        cases h
        exact hrange

/-- Dice have no sample of fewer than no cards, or of more cards than there are. -/
theorem Random.Dice.sample_eq_none_iff {α : Type} (items : List α) (count : Int) (d : Dice) :
    (d.sample items count).1 = none ↔ count < 0 ∨ count > items.length := by
  unfold sample
  split
  · next h => exact ⟨fun _ => h, fun _ => rfl⟩
  · next h =>
    refine ⟨fun hnone => ?_, fun hout => absurd hout h⟩
    split at hnone <;> cases hnone

/-- Cards picked at random fail if there are to be fewer than none, unless there are none to pick
from. -/
theorem Effect.randomTargets_fails_iff (e : Effect) (hand : Pile) (t : Table) :
    Fails (e.randomTargets hand) t ↔ e.maxTargets < 0 ∧ hand ≠ [] := by
  unfold randomTargets Fails
  by_cases hhand : hand = []
  · simp only [hhand, List.isEmpty_nil, if_true, exec_pure, ne_eq, not_true_eq_false, and_false,
      iff_false]
    rintro ⟨_, h⟩
    cases h
  · -- The count is clamped to the size of the hand, so it can only be too small.
    have hcount : e.randomCount hand.length < 0 ∨ e.randomCount hand.length > hand.length ↔
        e.maxTargets < 0 := by
      unfold randomCount
      split <;> omega
    have hsample := t.dice.sample_eq_none_iff hand (e.randomCount hand.length)
    rw [hcount] at hsample
    rw [if_neg (by simpa using hhand), exec_bind, Play.exec_throwDice, ← hsample]
    dsimp only
    rcases (t.dice.sample hand (e.randomCount hand.length)).1 with _ | cs
    · exact ⟨fun _ => ⟨rfl, hhand⟩, fun _ => ⟨_, rfl⟩⟩
    · constructor
      · rintro ⟨_, h⟩
        cases h
      · rintro ⟨h, -⟩
        cases h

/-- Targets fail if a negative number of them is to be picked at random from a hand that is not
empty. -/
theorem Effect.autoTargets_fails_iff (e : Effect) (r : Rules) (source : Option Card) (t : Table) :
    Fails (e.autoTargets r source) t ↔ e.Unpickable t.game := by
  unfold autoTargets Unpickable
  rw [Play.fails_game_bind]
  split
  -- The fifth case is the random pick, and no other target kind can fail.
  case h_5 hrandom => simp only [randomTargets_fails_iff, hrandom, true_and]
  all_goals
    next h =>
      refine ⟨fun hfails => absurd hfails (not_fails_pure _ t), ?_⟩
      rintro ⟨hrandom, -⟩
      simp_all

namespace Direct

variable (r : Rules)

/-- The magnitude of one of the effects cannot be drawn. -/
def SpeculationFails : List Effect → Table → Prop
  | [], _ => False
  | e :: rest, t =>
    e.Unmeasurable r {} [] t ∨ SpeculationFails rest (exec (e.magnitude r {} []) t).2

/-- One of the effects is come to with targets that cannot be picked or with a magnitude that cannot
be worked out. -/
def InterpretationFails (source : Option Card) :
    List (Effect × Int) → List Answer → ResultStack → Table → Prop
  | [], _, _, _ => False
  | (e, _) :: rest, answers, results, t =>
    e.Unpickable t.game ∨
      match exec (collect r source e answers) t with
      | (.ok (.targets cs answers), u) =>
        e.Unmeasurable r results cs u ∨
          match exec (carryOut r e cs results) u with
          | (.ok result, v) => InterpretationFails source rest answers (results.push result) v
          | (.error _, _) => False
      | (.ok (.nothing answers), u) =>
        InterpretationFails source rest answers (results.push (.failed e.kind)) u
      | _ => False

/-- One of the magnitudes of an activation cannot be drawn, or one of its effects cannot be carried
out. -/
def ActivationFails (groups : List Group) (source : Option Card) (answers : List Answer)
    (t : Table) : Prop :=
  SpeculationFails r (chosen r t.game groups) t ∨
    match exec (speculate r (chosen r t.game groups)) t with
    | (.ok entries, u) => InterpretationFails r source entries answers {} u
    | (.error _, _) => False

variable {r}

/-- Magnitudes are drawn unless one of them cannot be. -/
theorem speculate_fails_iff (effects : List Effect) (t : Table) :
    Fails (speculate r effects) t ↔ SpeculationFails r effects t := by
  induction effects generalizing t with
  | nil => exact ⟨fun h => absurd h (not_fails_pure _ t), False.elim⟩
  | cons e rest ih =>
    rw [speculate, SpeculationFails, ← e.magnitude_fails_iff r {} [] t]
    -- The effects behind the first fail by the table alone, whatever magnitude was drawn for it.
    refine fails_bind_iff_of_state (fun n u => ?_) t
    rw [fails_bind_iff_left fun _ v => not_fails_pure _ v]
    exact ih u

/-- Targets are collected unless they cannot be picked. -/
theorem collect_fails_iff (source : Option Card) (e : Effect) (answers : List Answer) (t : Table) :
    Fails (collect r source e answers) t ↔ e.Unpickable t.game := by
  unfold collect
  by_cases hsel : e.target.needsSelection = true
  · -- Where the player picks, nothing is picked at random.
    have hpick : ¬ e.Unpickable t.game := by
      rintro ⟨hrandom, -⟩
      rw [hrandom] at hsel
      cases hsel
    simp only [hsel, if_true, Play.fails_game_bind, hpick, iff_false]
    split
    · exact not_fails_pure _ t
    · split
      · exact not_fails_pure _ t
      · split
        · exact not_fails_pure _ t
        · exact not_fails_pure _ t
        · split <;> exact not_fails_pure _ t
  · simp only [hsel, if_false, Bool.false_eq_true]
    rw [fails_bind_iff_left fun _ v => not_fails_pure _ v]
    exact e.autoTargets_fails_iff r source t

/-- An effect is carried out unless its magnitude cannot be worked out. -/
theorem carryOut_fails_iff (e : Effect) (cs : List Card) (results : ResultStack) (t : Table) :
    Fails (carryOut r e cs results) t ↔ e.Unmeasurable r results cs t := by
  rw [carryOut, fails_bind_iff_left, e.magnitude_fails_iff]
  -- What fails after the magnitude is stood in for.
  intro n u
  unfold Fails
  rw [exec_tryCatch]
  rintro ⟨_, h⟩
  split at h <;> cases h

/-- Effects are gone through unless one of them cannot be carried out. -/
theorem interpret_fails_iff (source : Option Card) (effects : List (Effect × Int))
    (answers : List Answer) (results : ResultStack) (t : Table) :
    Fails (interpret r source effects answers results) t ↔
      InterpretationFails r source effects answers results t := by
  induction effects generalizing answers results t with
  | nil =>
    refine ⟨fun h => ?_, False.elim⟩
    cases answers <;> exact absurd h (not_fails_pure _ t)
  | cons head rest ih =>
    obtain ⟨e, value⟩ := head
    rw [interpret, InterpretationFails, fails_bind_iff, collect_fails_iff]
    refine or_congr_right ?_
    -- The cases are those of `Collected`; the effects go on after the first two of them.
    rcases exec (collect r source e answers) t with ⟨f | ⟨cs, answers⟩ | _ | _ | _, u⟩
    · exact Iff.rfl
    · dsimp only
      rw [fails_bind_iff, carryOut_fails_iff]
      refine or_congr_right ?_
      rcases exec (carryOut r e cs results) u with ⟨f | result, v⟩
      · exact Iff.rfl
      · exact ih answers _ v
    · exact ih _ _ u
    · exact ⟨fun h => absurd h (not_fails_pure _ u), False.elim⟩
    · exact ⟨fun h => absurd h (not_fails_pure _ u), False.elim⟩

/-- An activation is gone through unless it fails where it should. -/
theorem activate_fails_iff (groups : List Group) (source : Option Card) (answers : List Answer)
    (t : Table) :
    Fails (activate r groups source answers) t ↔ ActivationFails r groups source answers t := by
  unfold activate ActivationFails
  rw [Play.fails_game_bind, fails_bind_iff, speculate_fails_iff]
  refine or_congr_right ?_
  rcases exec (speculate r (chosen r t.game groups)) t with ⟨f | entries, u⟩
  · exact Iff.rfl
  · exact interpret_fails_iff source entries answers {} u

end Direct

end Treasury
