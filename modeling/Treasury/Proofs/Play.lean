import Treasury.Activation.Magnitude
import Treasury.Activation.Target
import Treasury.Game.Deck
import Treasury.Game.Economy
import Treasury.Proofs.Action

/-!
# Actions on the table

What the elementary actions on the table make of it, and which parts of it the actions that only
look at it leave alone.

* `Table.Rolled` relates two tables that differ in their dice at most.
* `Table.Rolled.magnitude`, `Table.Rolled.autoTargets`: resolving a magnitude and collecting targets
  do no more to the table than throw the dice.
* `Economy.exec_consumeAction_cases`, `Deck.exec_play_cases`: all that can come of spending an
  action and of playing a card.
-/

namespace Treasury

namespace Play

variable {α : Type}

/-- An action that looks at the game first sees it as it is. -/
theorem exec_game_bind (f : GameState → Play α) (t : Table) :
    exec (game >>= f) t = exec (f t.game) t := rfl

theorem exec_changeGame (f : GameState → GameState) (t : Table) :
    exec (changeGame f) t = (.ok (), { t with game := f t.game }) := rfl

@[simp]
theorem exec_changeZones (f : Zones → Zones) (t : Table) :
    exec (changeZones f) t =
      (.ok (), { t with game := { t.game with zones := f t.game.zones } }) := rfl

@[simp]
theorem exec_makeFromGame (f : GameState → α × GameState) (t : Table) :
    exec (makeFromGame f) t = (.ok (f t.game).1, { t with game := (f t.game).2 }) := rfl

@[simp]
theorem exec_throwDice (f : Random.Dice → α × Random.Dice) (t : Table) :
    exec (throwDice f) t = (.ok (f t.dice).1, { t with dice := (f t.dice).2 }) := rfl

@[simp]
theorem exec_calculate (answer : Except Numeric.NumberError α) (t : Table) :
    exec (calculate answer) t = (answer.mapError .number, t) := by
  cases answer <;> rfl

@[simp]
theorem exec_serve (r : Rules) (service : Service) (action : Play α) (t : Table) :
    exec (r.serve service action) t =
      if service ∈ r.outOfOrder then (.error (.outOfOrder service), t) else exec action t := by
  unfold Rules.serve
  split <;> rfl

theorem fails_game_bind (f : GameState → Play α) (t : Table) :
    Fails (game >>= f) t ↔ Fails (f t.game) t := Iff.rfl

/-- A calculation fails if it has no answer. -/
theorem fails_calculate_iff (answer : Except Numeric.NumberError α) (t : Table) :
    Fails (calculate answer) t ↔ ¬ ∃ a, answer = .ok a := by
  unfold Fails
  rw [exec_calculate]
  cases answer with
  | error e =>
    refine ⟨fun _ h => ?_, fun _ => ⟨_, rfl⟩⟩
    obtain ⟨_, h⟩ := h
    cases h
  | ok a =>
    refine ⟨fun h => ?_, fun h => absurd ⟨a, rfl⟩ h⟩
    obtain ⟨_, h⟩ := h
    cases h

theorem not_fails_throwDice (f : Random.Dice → α × Random.Dice) (t : Table) :
    ¬ Fails (throwDice f) t := fun ⟨_, h⟩ => nomatch h

/-- A service keeps what the action behind it keeps. -/
theorem keeps_serve {R : Table → Table → Prop} [Std.Refl R] {r : Rules} {service : Service}
    {action : Play α} (h : Keeps R action) : Keeps R (r.serve service action) := by
  unfold Rules.serve
  split
  · exact Keeps.throw _
  · exact h

end Play

/-- Spending an action fails, finds none, or takes one. -/
theorem Economy.exec_consumeAction_cases (r : Rules) (t : Table) :
    (∃ f, exec (consumeAction r) t = (.error f, t)) ∨
      t.game.actions ≤ 0 ∧ exec (consumeAction r) t = (.ok false, t) ∨
      1 ≤ t.game.actions ∧ exec (consumeAction r) t =
        (.ok true, { t with game := { t.game with actions := t.game.actions - 1 } }) := by
  unfold consumeAction
  rw [Play.exec_serve]
  split
  · exact .inl ⟨_, rfl⟩
  · rw [Play.exec_game_bind]
    split
    · next hnone => exact .inr (.inl ⟨hnone, rfl⟩)
    · exact .inr (.inr ⟨by omega, rfl⟩)

/-- Playing a card fails, or moves a card that the hand holds onto the play area. -/
theorem Deck.exec_play_cases (r : Rules) (c : Card) (t : Table) :
    (∃ f, exec (play r c) t = (.error f, t)) ∨
      t.game.zones.hand.holds c = true ∧ exec (play r c) t =
        (.ok (), { t with game := { t.game with zones :=
          (t.game.zones.update .hand (·.without c)).update .play (· ++ [c]) } }) := by
  unfold play
  rw [Play.exec_serve]
  split
  · exact .inl ⟨_, rfl⟩
  · rw [Play.exec_game_bind]
    split
    · next hheld => exact .inr ⟨hheld, rfl⟩
    · exact .inl ⟨_, rfl⟩

/-- The second table differs from the first in its dice at most. -/
def Table.Rolled (t u : Table) : Prop := ∃ dice, u = { t with dice }

instance : IsPreorder Table Table.Rolled where
  refl t := ⟨t.dice, rfl⟩
  trans := by
    rintro t _ _ ⟨d, rfl⟩ ⟨e, rfl⟩
    exact ⟨e, rfl⟩

namespace Table.Rolled

variable {α : Type}

theorem throwDice (f : Random.Dice → α × Random.Dice) : Keeps Rolled (Play.throwDice f) :=
  fun _ => ⟨_, rfl⟩

theorem calculate (answer : Except Numeric.NumberError α) : Keeps Rolled (Play.calculate answer) :=
  Keeps.of_fixed fun t => by rw [Play.exec_calculate]

theorem baseResult (s : ValueSource) (r : Rules) (results : ResultStack) (targets : List Card) :
    Keeps Rolled (s.baseResult r results targets) := by
  unfold ValueSource.baseResult
  refine Keeps.bind (Keeps.of_fixed fun _ => rfl) fun g => ?_
  split
  case h_6 => exact calculate _
  case h_12 => exact throwDice _
  case h_13 => exact Keeps.ite (Keeps.pure _) (throwDice _)
  all_goals exact Keeps.pure _

theorem resolve (s : ValueSource) (r : Rules) (results : ResultStack) (targets : List Card) :
    Keeps Rolled (s.resolve r results targets) :=
  Keeps.bind (baseResult s r results targets) fun _ => calculate _

/-- Resolving a magnitude only throws the dice. -/
theorem magnitude (e : Effect) (r : Rules) (results : ResultStack) (targets : List Card) :
    Keeps Rolled (e.magnitude r results targets) := by
  unfold Effect.magnitude
  split
  · exact Keeps.ite (Keeps.pure _) (resolve _ r results targets)
  · exact Keeps.pure _

theorem randomTargets (e : Effect) (hand : Pile) : Keeps Rolled (e.randomTargets hand) := by
  unfold Effect.randomTargets
  refine Keeps.ite (Keeps.pure _) (Keeps.bind (throwDice _) fun picked => ?_)
  cases picked with
  | some cards => exact Keeps.pure _
  | none => exact Keeps.throw _

/-- Collecting targets only throws the dice. -/
theorem autoTargets (e : Effect) (r : Rules) (source : Option Card) :
    Keeps Rolled (e.autoTargets r source) := by
  unfold Effect.autoTargets
  refine Keeps.bind (Keeps.of_fixed fun _ => rfl) fun g => ?_
  split
  case h_5 => exact randomTargets e _
  all_goals exact Keeps.pure _

end Table.Rolled

end Treasury
