import Treasury.Proofs.Execution.Household

/-!
# Effects on belongings

The belongings of a game are its cards, their boosts and the household. Effects on cards and on
units do something to these and to nothing else, as their footprints say: gold, actions and whatever
else there is to the turn are the same after them. `Table.Aside` is the other half of the effects;
only settling treasures belongs to both halves.

* `Table.SameTurn` relates two tables that differ in the belongings at most.
* `Table.SameTurn.executeKind`: which effects do no more than that.
* `EffectResult.granted`: what a result says about the actions.
* `Assignment.actions_execute`: the actions after an effect are what they were, plus what its result
  says was granted.
-/

namespace Treasury

/-- A game without its belongings: what is left are gold and the turn. -/
def GameState.withoutBelongings (g : GameState) : GameState :=
  { g.withoutCards with residents := [], houses := [], unitsMade := 0 }

/-- The second table differs from the first in its belongings, the dice and the promised promotions
at most. -/
def Table.SameTurn (t u : Table) : Prop := u.game.withoutBelongings = t.game.withoutBelongings

namespace Table.SameTurn

variable {r : Rules} {t u : Table}

/-- What can be seen of a game without its belongings is the same. -/
theorem view_eq {γ : Type} (h : t.SameTurn u) {view : GameState → γ}
    (hview : ∀ g : GameState, view g.withoutBelongings = view g) : view u.game = view t.game := by
  rw [← hview u.game, h, hview]

/-- What differs in the cards, the household, the promises and the dice. -/
theorem of_differsIn (h : t.DiffersIn [.piles, .playArea, .boosts, .units, .promises, .dice,
    .cardNumbers, .unitNumbers] u) : t.SameTurn u := by
  have hturn := h.same (p := .turn) (by decide)
  have hgold := h.same (p := .gold) (by decide)
  have hactions := h.same (p := .actions) (by decide)
  have hscheduled := h.same (p := .scheduled) (by decide)
  have hmultiplier := h.same (p := .multiplier) (by decide)
  have hbonus := h.same (p := .bonus) (by decide)
  have hpollution := h.same (p := .pollution) (by decide)
  have hdiscount := h.same (p := .discount) (by decide)
  have heffectNumbers := h.same (p := .effectNumbers) (by decide)
  simp only [Part.Same, Prod.mk.injEq] at *
  simp only [SameTurn, GameState.withoutBelongings, GameState.withoutCards, hturn, hgold, hactions,
    hscheduled, hmultiplier, hbonus, hpollution, hdiscount, heffectNumbers]

/-- Effects on cards and units leave gold and the turn as they are. -/
theorem executeKind (a : Assignment) {kind : EffectKind} (haside : kind.isAside = false)
    (hsettle : kind ≠ .settleCard) : Keeps SameTurn (a.executeKind r kind) := by
  refine (DiffersIn.executeKind a r kind).mono fun _ _ hdiffers => of_differsIn (hdiffers.mono ?_)
  cases kind <;> first | decide | exact absurd rfl hsettle | cases haside

end Table.SameTurn

/-! ## Actions -/

/-- The second table has as many actions as the first. -/
def Table.SameActions (t u : Table) : Prop := u.game.actions = t.game.actions

namespace Table.SameActions

variable {r : Rules}

/-- Only one kind of effects does something to the actions. -/
theorem executeKind (a : Assignment) {kind : EffectKind} (hadd : kind ≠ .addAction) :
    Keeps SameActions (a.executeKind r kind) :=
  fun t => Part.Same.executeKind (p := .actions) (fun h => hadd (List.mem_singleton.mp h)) a r t

end Table.SameActions

/-- The actions that a result says were granted. -/
def EffectResult.granted (result : EffectResult) : Int :=
  if result.kind = .known .addAction then result.value else 0

/-- Effects that could not be carried out grant nothing. -/
@[simp]
theorem EffectResult.granted_failed (kind : Word EffectKind) :
    (EffectResult.failed kind).granted = 0 := by
  unfold granted
  split <;> rfl

/-- The actions after an effect are what they were, plus what its result says was granted. -/
theorem Assignment.actions_execute (a : Assignment) (r : Rules) (t : Table) :
    (exec (a.execute r) t).2.game.actions =
      t.game.actions + ((exec (a.execute r) t).1.toOption.getD a.failed).granted := by
  by_cases hadd : a.effect.kind = .known .addAction
  · have hexecute : a.execute r = a.addAction r := execute_of_known hadd r
    rw [hexecute]
    obtain ⟨f, hdone⟩ | hdone := a.exec_addAction r t <;> rw [hdone]
    · show t.game.actions = t.game.actions + a.failed.granted
      simp [failed]
    · show t.game.actions + a.magnitude = t.game.actions + a.doneInFull.granted
      simp [EffectResult.granted, doneInFull, done, hadd]
  · -- The result of any other kind grants nothing, so the actions have to stay as they are.
    have hgranted : ((exec (a.execute r) t).1.toOption.getD a.failed).granted = 0 :=
      if_neg (a.kind_of_result r t ▸ hadd)
    rw [hgranted, Int.add_zero]
    rcases hkind : a.effect.kind with kind | word
    · rw [execute_of_known hkind]
      exact Table.SameActions.executeKind a (fun h => hadd (hkind.trans (congrArg _ h))) t
    · rw [execute_of_unknown hkind]
      rfl

end Treasury
