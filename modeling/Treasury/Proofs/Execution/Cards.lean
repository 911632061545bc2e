import Treasury.Proofs.Execution.Aside

/-!
# Effects on cards

Thirteen kinds of effects have to do with the cards and their boosts, and with nothing else in the
game, as their footprints say. Gold, the turn and the household are the same after them.

* `Table.CardsOnly` relates two tables that differ in their cards and dice at most.
* `Table.CardsOnly.executeKind`: which effects do no more than that. `EffectKind.isOnCards` tells
  them from the others.
* `Table.CardsOnly.play`: playing a card does no more either.
-/

namespace Treasury

/-- A game without its cards: what is left are gold, the turn and the household. -/
def GameState.withoutCards (g : GameState) : GameState :=
  { g with zones := {}, boosts := [], instancesMade := 0, copiesMade := 0 }

/-- Whether effects of a kind have to do with cards only. -/
def EffectKind.isOnCards : EffectKind → Bool
  | .drawCard | .createTempTreasure | .boostTreasure | .permanentUpgrade | .destroyCard
  | .destroyPollution | .moveToDeckBottom | .shuffleDeck | .revealAndGain | .drawUntil
  | .addCardToDeck | .removeCardFromDeck | .upgradeCardInDeck => true
  | _ => false

/-- The second table differs from the first in its cards and dice at most. -/
structure Table.CardsOnly (t u : Table) : Prop where
  /-- Whatever is not about the cards is the same. -/
  withoutCards : u.game.withoutCards = t.game.withoutCards
  /-- The same promotions are promised. -/
  promotions : u.promotions = t.promotions

namespace Table.CardsOnly

variable {r : Rules} {t u : Table}

instance : IsPreorder Table CardsOnly where
  refl _ := ⟨rfl, rfl⟩
  trans _ _ _ h k := ⟨k.withoutCards.trans h.withoutCards, k.promotions.trans h.promotions⟩

/-- What differs in the cards, their numbers and boosts, and the dice. -/
theorem of_differsIn (h : t.DiffersIn [.piles, .playArea, .boosts, .cardNumbers, .dice] u) :
    t.CardsOnly u := by
  refine ⟨?_, h.same (p := .promises) (by decide)⟩
  -- All parts but those of the cards are as they were.
  have hturn := h.same (p := .turn) (by decide)
  have hgold := h.same (p := .gold) (by decide)
  have hactions := h.same (p := .actions) (by decide)
  have hunits := h.same (p := .units) (by decide)
  have hscheduled := h.same (p := .scheduled) (by decide)
  have hmultiplier := h.same (p := .multiplier) (by decide)
  have hbonus := h.same (p := .bonus) (by decide)
  have hpollution := h.same (p := .pollution) (by decide)
  have hdiscount := h.same (p := .discount) (by decide)
  have hunitNumbers := h.same (p := .unitNumbers) (by decide)
  have heffectNumbers := h.same (p := .effectNumbers) (by decide)
  simp only [Part.Same, Prod.mk.injEq] at *
  simp only [GameState.withoutCards, hturn, hgold, hactions, hunits, hscheduled, hmultiplier,
    hbonus, hpollution, hdiscount, hunitNumbers, heffectNumbers]

/-- Playing a card from hand only moves it. -/
theorem play (c : Card) : Keeps CardsOnly (Deck.play r c) := by
  refine Play.keeps_serve (.bind (.of_fixed fun _ => rfl) fun g => ?_)
  split
  · exact fun _ => ⟨rfl, rfl⟩
  · exact .throw _

/-- Effects on cards leave gold, the turn and the household as they are. -/
theorem executeKind (a : Assignment) {kind : EffectKind} (h : kind.isOnCards = true) :
    Keeps CardsOnly (a.executeKind r kind) := by
  refine (DiffersIn.executeKind a r kind).mono fun _ _ hdiffers => of_differsIn (hdiffers.mono ?_)
  cases kind <;> first | decide | cases h

end Table.CardsOnly

end Treasury
