import Treasury.Proofs.Execution.Purse
import Treasury.Proofs.Execution.Settling

/-!
# What a card is worth

The gold value of cards is read in three places: the source that looks at the top of the deck, the
source that looks at the targets, and the service that settles treasures. The first goes by the
definition of a treasure and forgets the boost, the second by the boost or else the definition,
whatever kind of card it is of, and the third does so for treasures only.

Grades are worth something and no two are worth the same, so prices agree exactly if grades do:
`Rules.gradeOf?` is the grade that a card has now, `Rules.treasureGrade?` the one that its
definition gives it as a treasure.

* `Rules.PricedOnce`: a card is not boosted away from its grade, and it has one as a treasure only.
* `Rules.exec_settle_fst`: settling answers with what the treasures among the given cards are worth.
* `ValueSource.reading_prices_iff`: where the three places agree, for a card and for many.
-/

namespace Treasury

namespace Grade

theorem worth_pos (g : Grade) : 0 < g.worth := by
  cases g <;> decide

/-- A grade is the only one of its worth, and no grade is worth nothing. -/
theorem elim_worth_injective : Function.Injective fun g : Option Grade => g.elim 0 worth := by
  intro g h heq
  cases g with
  | none => cases h with
    | none => rfl
    | some h => exact absurd heq h.worth_pos.ne
  | some g => cases h with
    | none => exact absurd heq g.worth_pos.ne'
    | some h =>
      revert heq
      cases g <;> cases h <;> decide

end Grade

/-- What a source reads before its multiplier, if it is one of the given kind. -/
def ValueSource.reading (s : ValueSource) (r : Rules) (results : ResultStack) (targets : List Card)
    (t : Table) (kind : SourceKind) : Except Fault Int :=
  (exec ({ s with kind := .known kind }.baseResult r results targets) t).1

namespace Rules

/-- The grade that a card has now: the one it is boosted to, and without a boost that of its
definition. -/
def gradeOf? (r : Rules) (boosts : Boosts) (c : Card) : Option Grade :=
  boosts.grade? c <|> (r.catalog.card? c.cardId).bind (·.grade)

/-- A card is not boosted to a grade other than the one that it has as a treasure, and its
definition gives it none if it is no treasure. -/
structure PricedOnce (r : Rules) (boosts : Boosts) (c : Card) : Prop where
  /-- The boost changes nothing. -/
  boost : ∀ g, boosts.grade? c = some g → r.treasureGrade? c = some g
  /-- Only treasures have a grade. -/
  definition : ∀ d, r.catalog.card? c.cardId = some d → d.isTreasure = false → d.grade = none

variable {r : Rules} {boosts : Boosts} {c : Card}

/-! ## Prices are those of grades -/

theorem worthOf_eq (r : Rules) (boosts : Boosts) (c : Card) :
    r.worthOf boosts c = (r.gradeOf? boosts c).elim 0 Grade.worth := by
  unfold worthOf gradeOf?
  cases boosts.grade? c with
  | some g => rfl
  | none => cases r.catalog.card? c.cardId with
    | none => rfl
    | some d =>
      simp only [Option.bind_some, CardDefinition.worth]
      cases d.grade <;> rfl

/-- The card on top is worth its grade as a treasure. -/
theorem deckTopWorth_eq {g : GameState} (h : g.deckTop? = some c) :
    r.deckTopWorth g = (r.treasureGrade? c).elim 0 Grade.worth := by
  unfold deckTopWorth treasureGrade?
  rw [h]
  dsimp only
  cases r.catalog.card? c.cardId with
  | none => rfl
  | some d =>
    simp only [CardDefinition.worth]
    cases d.isTreasure <;> cases d.grade <;> rfl

/-- Cards are worth nothing exactly if they have no grade. -/
theorem worthOf_eq_zero_iff : r.worthOf boosts c = 0 ↔ r.gradeOf? boosts c = none := by
  rw [worthOf_eq]
  exact Grade.elim_worth_injective.eq_iff' rfl

theorem treasureGrade?_of_not_isTreasure (h : Deck.isTreasure r c = false) :
    r.treasureGrade? c = none := by
  unfold treasureGrade?
  cases hd : r.catalog.card? c.cardId with
  | none => rfl
  | some d =>
    simp [Deck.isTreasure, kindOf, Catalog.kind?, hd] at h
    simp [CardDefinition.isTreasure, h]

/-- A card has one price if the grade that it has now is the one that it has as a treasure. -/
theorem pricedOnce_iff : r.PricedOnce boosts c ↔ r.treasureGrade? c = r.gradeOf? boosts c := by
  unfold gradeOf?
  cases hboost : boosts.grade? c with
  | some g =>
    refine ⟨fun h => h.boost g hboost, fun h => ⟨fun g' hg => ?_, fun d hd hkind => ?_⟩⟩
    · rw [hboost] at hg
      exact h.trans hg
    -- Only treasures are boosted to a grade that they have.
    · simp [treasureGrade?, hd, hkind] at h
  | none =>
    unfold treasureGrade?
    cases hd : r.catalog.card? c.cardId with
    | none =>
      refine iff_of_true ⟨fun g hg => ?_, fun d hsome => ?_⟩ rfl
      · rw [hboost] at hg
        cases hg
      · rw [hd] at hsome
        cases hsome
    | some d =>
      change _ ↔ (if d.isTreasure then d.grade else none) = d.grade
      constructor
      · intro h
        split
        · rfl
        · next hkind => exact (h.definition d hd (Bool.eq_false_iff.mpr hkind)).symm
      · refine fun h => ⟨fun g hg => ?_, fun d' hsome hkind => ?_⟩
        · rw [hboost] at hg
          cases hg
        · obtain rfl := Option.some.inj (hd.symm.trans hsome)
          rw [hkind] at h
          exact h.symm

/-! ## Cards together -/

theorem worthOfAll_cons (r : Rules) (boosts : Boosts) (c : Card) (cs : List Card) :
    r.worthOfAll boosts (c :: cs) = r.worthOf boosts c + r.worthOfAll boosts cs := rfl

/-- The treasures among some cards are worth no more than all of them. -/
theorem worthOfAll_treasures_le (r : Rules) (boosts : Boosts) (cs : List Card) :
    r.worthOfAll boosts (cs.filter (Deck.isTreasure r)) ≤ r.worthOfAll boosts cs := by
  induction cs with
  | nil => exact le_rfl
  | cons c rest ih =>
    have hworth := r.worthOf_nonneg boosts c
    by_cases h : Deck.isTreasure r c = true
    · rw [List.filter_cons_of_pos h, worthOfAll_cons, worthOfAll_cons]
      omega
    · rw [List.filter_cons_of_neg h, worthOfAll_cons]
      omega

/-- Cards are worth as much as the treasures among them exactly if no other has a grade. -/
theorem worthOfAll_treasures_eq_iff (cs : List Card) :
    r.worthOfAll boosts (cs.filter (Deck.isTreasure r)) = r.worthOfAll boosts cs ↔
      ∀ c ∈ cs, Deck.isTreasure r c = false → r.gradeOf? boosts c = none := by
  induction cs with
  | nil => simp
  | cons c rest ih =>
    rw [List.forall_mem_cons, ← ih]
    by_cases h : Deck.isTreasure r c = true
    · rw [List.filter_cons_of_pos h, worthOfAll_cons, worthOfAll_cons, h]
      simp
    · -- What the card is worth and what the others are worth too much add up to nothing.
      have hworth := r.worthOf_nonneg boosts c
      have hle := r.worthOfAll_treasures_le boosts rest
      rw [List.filter_cons_of_neg h, worthOfAll_cons, Bool.eq_false_iff.mpr h, eq_self,
        true_imp_iff, ← worthOf_eq_zero_iff]
      omega

/-- Settling answers with what the treasures among the given cards are worth. -/
theorem exec_settle_fst (hin : Service.settle ∉ r.outOfOrder) (cs : List Card) (t : Table) :
    (exec (Deck.settle r cs) t).1 =
      .ok (r.worthOfAll t.game.boosts (cs.filter (Deck.isTreasure r))) := by
  rw [Deck.settle, Play.exec_serve, if_neg hin, Play.exec_makeFromGame]
  exact congrArg Except.ok (Deck.settled_worth r t.game.boosts cs t.game.zones)

end Rules

namespace ValueSource

variable {r : Rules} {t : Table}

theorem reading_targets (s : ValueSource) (r : Rules) (results : ResultStack) (cs : List Card)
    (t : Table) :
    s.reading r results cs t .targetGoldValue = .ok (r.worthOfAll t.game.boosts cs) := rfl

/-- As the top of the deck, as the only target and as the only card to settle, a card has the same
price exactly if it is priced once. Several targets are worth what they are settled for exactly if
none of them has a grade without being a treasure. -/
theorem reading_prices_iff (hin : Service.settle ∉ r.outOfOrder) (s : ValueSource)
    (results : ResultStack) (t : Table) :
    (∀ c targets, t.game.deckTop? = some c →
      ((∃ price, s.reading r results targets t .deckTopGoldValue = .ok price ∧
          s.reading r results [c] t .targetGoldValue = .ok price ∧
          (exec (Deck.settle r [c]) t).1 = .ok price) ↔
        r.PricedOnce t.game.boosts c)) ∧
    ∀ cs, (∃ total, s.reading r results cs t .targetGoldValue = .ok total ∧
          (exec (Deck.settle r cs) t).1 = .ok total) ↔
        ∀ c ∈ cs, Deck.isTreasure r c = false → r.gradeOf? t.game.boosts c = none := by
  have hmany : ∀ cs, (exec (Deck.settle r cs) t).1 = .ok (r.worthOfAll t.game.boosts cs) ↔
      ∀ c ∈ cs, Deck.isTreasure r c = false → r.gradeOf? t.game.boosts c = none := by
    intro cs
    rw [Rules.exec_settle_fst hin, Except.ok.injEq, Rules.worthOfAll_treasures_eq_iff]
  constructor
  · intro c targets htop
    have hone : r.worthOfAll t.game.boosts [c] = r.worthOf t.game.boosts c := Int.add_zero _
    have hgrades : r.deckTopWorth t.game = r.worthOfAll t.game.boosts [c] ↔
        r.PricedOnce t.game.boosts c := by
      rw [hone, Rules.deckTopWorth_eq htop, Rules.worthOf_eq,
        Grade.elim_worth_injective.eq_iff, Rules.pricedOnce_iff]
    refine ⟨?_, fun hpriced => ?_⟩
    · rintro ⟨price, hdeck, htarget, -⟩
      exact hgrades.mp (Except.ok.inj (hdeck.trans htarget.symm))
    · refine ⟨_, rfl, congrArg Except.ok (hgrades.mpr hpriced).symm, ?_⟩
      rw [hgrades.mpr hpriced, hmany, List.forall_mem_singleton]
      -- What is no treasure has no grade as one, so it has none at all.
      intro hkind
      rw [← Rules.pricedOnce_iff.mp hpriced, Rules.treasureGrade?_of_not_isTreasure hkind]
  · intro cs
    simp only [reading_targets, Except.ok.injEq, exists_eq_left']
    exact hmany cs

/-- A copper that is not boosted is worth one in all three places. -/
theorem reading_prices_of_copper :
    let r : Rules := { catalog := { cards := [Starter.treasure .copper] } }
    let copper : Card := { serial := 1, instanceId := "copper#1", cardId := "copper" }
    let t : Table :=
      { game := { zones := { deck := [copper] } },
        dice := { twister := { words := #[], used := 0 } } }
    let s : ValueSource := {}
    Service.settle ∉ r.outOfOrder ∧ t.game.deckTop? = some copper ∧
      (∃ price, s.reading r {} [] t .deckTopGoldValue = .ok price ∧
        s.reading r {} [copper] t .targetGoldValue = .ok price ∧
        (exec (Deck.settle r [copper]) t).1 = .ok price) ∧
      ∃ total, s.reading r {} [copper, copper] t .targetGoldValue = .ok total ∧
        (exec (Deck.settle r [copper, copper]) t).1 = .ok total := by
  intro r copper t s
  have hin : Service.settle ∉ r.outOfOrder := by decide
  have htreasure : Deck.isTreasure r copper = true := by decide
  have hprices := reading_prices_iff hin s {} t
  refine ⟨hin, rfl, (hprices.1 copper [] rfl).mpr (Rules.pricedOnce_iff.mpr (by decide)),
    (hprices.2 [copper, copper]).mpr ?_⟩
  simp [htreasure]

/-- A copper on top of the deck that is boosted to a silver is worth one to the source that looks
there, and two as a target and where it is settled. -/
theorem prices_differ_of_boosted_copper :
    let r : Rules := { catalog := { cards := [Starter.treasure .copper] } }
    let copper : Card := { serial := 1, instanceId := "copper#1", cardId := "copper" }
    let t : Table :=
      { game := { zones := { deck := [copper] }, boosts := Boosts.boost [] copper .silver },
        dice := { twister := { words := #[], used := 0 } } }
    let s : ValueSource := {}
    Service.settle ∉ r.outOfOrder ∧ t.game.deckTop? = some copper ∧
      s.reading r {} [] t .deckTopGoldValue = .ok 1 ∧
      s.reading r {} [copper] t .targetGoldValue = .ok 2 ∧
      (exec (Deck.settle r [copper]) t).1 = .ok 2 ∧
      ¬ ∃ price, s.reading r {} [] t .deckTopGoldValue = .ok price ∧
        s.reading r {} [copper] t .targetGoldValue = .ok price ∧
        (exec (Deck.settle r [copper]) t).1 = .ok price := by
  intro r copper t s
  have hdeck : s.reading r {} [] t .deckTopGoldValue = .ok 1 := rfl
  have htarget : s.reading r {} [copper] t .targetGoldValue = .ok 2 := rfl
  refine ⟨by decide, rfl, hdeck, htarget, by decide +kernel, ?_⟩
  rintro ⟨price, hone, htwo, -⟩
  rw [hdeck] at hone
  rw [htarget, ← hone] at htwo
  cases htwo

end ValueSource

end Treasury
