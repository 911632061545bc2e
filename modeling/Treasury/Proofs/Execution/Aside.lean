import Treasury.Proofs.Execution.Footprint
import Treasury.Proofs.Game.Evolution

/-!
# Effects on gold and the turn

A good part of the effects has to do with gold, actions and what is due on later turns, and with
nothing else on the table, as their footprints say. Whatever is about the cards, their boosts or the
household is the same after them.

* `Table.Aside` relates two tables that differ beside all of this at most.
* `Table.MoneyOnly` relates two tables that have as many actions besides.
* `Table.MoneyOnly.executeKind`, `Table.Aside.executeKind`: which effects do no more than that.
  `EffectKind.isAside` tells them from the others, and of these only one kind adds actions.
-/

namespace Treasury

/-- What belongs to the household: the units, the houses and the number of unit ids made. -/
def GameState.household (g : GameState) : List Resident × List House × Nat :=
  (g.residents, g.houses, g.unitsMade)

/-- What a game has beside gold and the turn: the cards with their numbers and boosts, and the
household. -/
def GameState.belongings (g : GameState) :
    (Zones × Nat × Nat) × Boosts × List Resident × List House × Nat :=
  (g.inventory, g.boosts, g.household)

/-- Whether effects of a kind have to do with gold and the turn only. -/
def EffectKind.isAside : EffectKind → Bool
  | .addAction | .addGold | .goldMultiplier | .goldBonus | .gamble | .spendGoldPercent
  | .delayedGold | .persistentGold | .persistentMaintenance | .maintenanceModifier
  | .ignorePollution | .promotionDiscount => true
  | _ => false

/-- The second table differs from the first in gold, the turn and the dice at most. -/
structure Table.Aside (t u : Table) : Prop where
  /-- The cards and the household are the same. -/
  belongings : u.game.belongings = t.game.belongings
  /-- The same promotions are promised. -/
  promotions : u.promotions = t.promotions

namespace Table.Aside

variable {r : Rules} {α : Type} {t u : Table}

instance : IsPreorder Table Aside where
  refl _ := ⟨rfl, rfl⟩
  trans _ _ _ h k := ⟨k.belongings.trans h.belongings, k.promotions.trans h.promotions⟩

theorem inventory (h : t.Aside u) : u.game.inventory = t.game.inventory :=
  congrArg Prod.fst h.belongings

theorem zones (h : t.Aside u) : u.game.zones = t.game.zones := congrArg Prod.fst h.inventory

theorem boosts (h : t.Aside u) : u.game.boosts = t.game.boosts :=
  congrArg (·.2.1) h.belongings

theorem household (h : t.Aside u) : u.game.household = t.game.household :=
  congrArg (·.2.2) h.belongings

theorem keeps_of_rolled {x : Play α} (h : Keeps Rolled x) : Keeps Aside x := by
  refine h.mono fun t u hrolled => ?_
  obtain ⟨dice, rfl⟩ := hrolled
  exact ⟨rfl, rfl⟩

theorem changeGame {f : GameState → GameState} (h : ∀ g, (f g).belongings = g.belongings) :
    Keeps Aside (Play.changeGame f) := fun t => ⟨h t.game, rfl⟩

theorem consumeAction : Keeps Aside (Economy.consumeAction r) :=
  Play.keeps_serve <| .bind (.of_fixed fun _ => rfl) fun _ => .ite (.pure _) <|
    .bind (changeGame fun _ => rfl) fun _ => .pure _

end Table.Aside

/-- An effect that adds actions adds as many as its magnitude says, unless the service is out of
order. -/
theorem Assignment.exec_addAction (a : Assignment) (r : Rules) (t : Table) :
    (∃ f, exec (a.addAction r) t = (.error f, t)) ∨
      exec (a.addAction r) t = (.ok a.doneInFull,
        { t with game := { t.game with actions := t.game.actions + a.magnitude } }) := by
  unfold addAction Economy.addActions
  rw [exec_bind, Play.exec_serve]
  by_cases hout : Service.addActions ∈ r.outOfOrder
  · rw [if_pos hout]
    exact .inl ⟨_, rfl⟩
  · rw [if_neg hout]
    exact .inr rfl

/-- A game without gold, the modifiers of the turn and what is due on later turns: what is left are
the belongings and the actions. -/
def GameState.withoutMoney (g : GameState) : GameState :=
  { g with gold := 0, scheduled := [], goldMultiplier := .one, goldBonus := 0,
           pollutionIgnored := false, promotionDiscount := 0, effectsMade := 0 }

/-- The second table differs from the first in gold, the modifiers of the turn, what is due on later
turns and the dice at most. -/
structure Table.MoneyOnly (t u : Table) : Prop where
  /-- The belongings and the actions are the same. -/
  withoutMoney : u.game.withoutMoney = t.game.withoutMoney
  /-- The same promotions are promised. -/
  promotions : u.promotions = t.promotions

namespace Table.MoneyOnly

variable {r : Rules} {t u : Table}

theorem aside (h : t.MoneyOnly u) : t.Aside u := by
  have hbelongings : u.game.withoutMoney.belongings = t.game.withoutMoney.belongings :=
    congrArg GameState.belongings h.withoutMoney
  exact ⟨hbelongings, h.promotions⟩

/-- What differs in gold, the modifiers of the turn, what is due later and the dice. The number of
an effect that is due later is of no card and of no unit. -/
theorem of_differsIn (h : t.DiffersIn [.gold, .scheduled, .multiplier, .bonus, .pollution,
    .discount, .dice, .effectNumbers] u) : t.MoneyOnly u := by
  refine ⟨?_, h.same (p := .promises) (by decide)⟩
  have hturn := h.same (p := .turn) (by decide)
  have hactions := h.same (p := .actions) (by decide)
  have hboosts := h.same (p := .boosts) (by decide)
  have hunits := h.same (p := .units) (by decide)
  have hcardNumbers := h.same (p := .cardNumbers) (by decide)
  have hunitNumbers := h.same (p := .unitNumbers) (by decide)
  simp only [Part.Same, Prod.mk.injEq] at hturn hactions hboosts hunits hcardNumbers hunitNumbers
  simp only [GameState.withoutMoney, h.zones_eq (by decide) (by decide), hturn, hactions, hboosts,
    hunits, hcardNumbers, hunitNumbers]

/-- Once cards are settled only the gold for them is gained. -/
theorem gainOfSettled (a : Assignment) (total : Int) :
    Keeps MoneyOnly (do
      if total > 0 then discard (Economy.addGold r total true)
      return a.done a.targets.length total) :=
  (DiffersIn.gainOfSettled (by decide) a total).mono fun _ _ => of_differsIn

/-- Effects on gold and the turn leave the belongings as they are, and the actions too unless they
add some. -/
theorem executeKind (a : Assignment) {kind : EffectKind} (h : kind.isAside = true)
    (hadd : kind ≠ .addAction) : Keeps MoneyOnly (a.executeKind r kind) := by
  refine (DiffersIn.executeKind a r kind).mono fun _ _ hdiffers => of_differsIn (hdiffers.mono ?_)
  cases kind <;> first | decide | exact absurd rfl hadd | cases h

end Table.MoneyOnly

namespace Table.Aside

variable {r : Rules}

theorem gainOfSettled (a : Assignment) (total : Int) :
    Keeps Aside (do
      if total > 0 then discard (Economy.addGold r total true)
      return a.done a.targets.length total) :=
  (MoneyOnly.gainOfSettled a total).mono fun _ _ => MoneyOnly.aside

/-- Effects on gold and the turn do nothing to the cards and the household. -/
theorem executeKind (a : Assignment) {kind : EffectKind} (h : kind.isAside = true) :
    Keeps Aside (a.executeKind r kind) := by
  by_cases hadd : kind = .addAction
  · subst hadd
    exact .bind (Play.keeps_serve (changeGame fun _ => rfl)) fun _ => .pure _
  · exact (MoneyOnly.executeKind a h hadd).mono fun _ _ => MoneyOnly.aside

end Table.Aside

end Treasury
