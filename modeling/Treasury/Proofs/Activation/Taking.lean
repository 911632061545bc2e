import Treasury.Proofs.Activation.Targets

/-!
# Which targets an effect takes

An effect is carried out on targets that were just collected, on the first of those that can be
picked, or on those that a player picked when asked. `Effect.Takes` is what these have in common.

An effect without a target takes no cards (`Effect.eq_nil_of_takes`), and one that wants cards of
one kind takes no others (`Effect.kindOf_of_takes`).
-/

namespace Treasury

/-- An effect of an activation from a source may be carried out on these targets as the game stands:
they were collected there, or they are cards that could be picked when they were asked for. -/
inductive Effect.Takes (e : Effect) (r : Rules) (source : Option Card) (targets : List Card)
    (g : GameState) : Prop where
  /-- The targets are collected without asking. -/
  | collected {t : Table} (hsel : e.target.needsSelection = false) (hgame : t.game = g)
    (h : (exec (e.autoTargets r source) t).1 = .ok targets)
  /-- The targets are picked. -/
  | picked (hsel : e.target.needsSelection = true) (asked : GameState)
    (h : ∀ c ∈ targets, c ∈ e.selectable r asked)

namespace Effect

variable {e : Effect} {r : Rules} {source : Option Card} {targets : List Card} {g : GameState}
  {kind : CardKind} {c : Card}

/-- An effect without a target takes no cards. -/
theorem eq_nil_of_takes (htarget : e.target = .none) (h : e.Takes r source targets g) :
    targets = [] := by
  cases h with
  | collected hsel hgame h =>
    unfold autoTargets at h
    rw [Play.exec_game_bind, htarget] at h
    cases h
    rfl
  | picked hsel =>
    rw [htarget] at hsel
    cases hsel

/-- An effect that wants cards of one kind lets no others be picked. -/
theorem kindOf_of_mem_selectable (hwanted : e.target.wanted? = some kind)
    (hc : c ∈ e.selectable r g) : r.kindOf c = some kind := by
  -- Only where any hand card is wanted, none is turned away for its kind.
  have hnot : e.target ≠ .handCard := by
    intro htarget
    rw [htarget] at hwanted
    cases hwanted
  unfold selectable at hc
  rw [if_neg hnot, hwanted] at hc
  have heligible : c ∈ g.zones.hand.filter fun c => r.kindOf c = some kind := by
    dsimp only at hc
    split at hc
    · exact (List.mem_filter.mp hc).1
    · exact hc
  exact of_decide_eq_true (List.mem_filter.mp heligible).2

/-- An effect that wants cards of one kind takes no others. -/
theorem kindOf_of_takes (hwanted : e.target.wanted? = some kind) (h : e.Takes r source targets g)
    (hc : c ∈ targets) : r.kindOf c = some kind := by
  cases h with
  | picked hsel asked h => exact kindOf_of_mem_selectable hwanted (h c hc)
  | collected hsel hgame h =>
    unfold autoTargets at h
    rw [Play.exec_game_bind, hwanted] at h
    -- Of the targets that are collected, only two kinds want cards of one kind.
    rcases htarget : e.target <;> rw [htarget] at hwanted hsel h
    case allHandTreasure | allHandPollution =>
      cases h
      exact of_decide_eq_true (List.mem_filter.mp hc).2
    case handTreasure | handPollution | handAction => cases hsel
    all_goals cases hwanted

end Effect

end Treasury
