import Treasury.Proofs.Execution.Exchange
import Treasury.Proofs.Execution.Failing
import Treasury.Proofs.Random.Shuffle

/-!
# Conditions that guard effects

Some conditions ask whether there is anything for an effect to act on: a unit to lose, a copper to
upgrade. The condition counts and the effect searches, over the same cards in another order or
through a pick at random, and they agree: compared as its kind naturally is, the condition holds
exactly where the effect, carried out there and then, succeeds.

* `ConditionKind.Guards` lists the kinds of conditions with the kinds of effects that they guard.
* `Condition.Guards.holds_iff`: a guard holds if what it counts is there at all.
* `Assignment.execute_succeeds_iff_holds`: an effect succeeds if and only if its guard holds.
-/

namespace Treasury

/-- Carried out from a table, an action answers with a result, which is a success exactly if a
statement holds. -/
def Play.SucceedsIff (p : Prop) (x : Play EffectResult) (t : Table) : Prop :=
  ∃ result u, exec x t = (.ok result, u) ∧ (result.success = true ↔ p)

/-- The kinds of conditions that guard a kind of effect, with the cards that the condition and the
effect name. -/
inductive ConditionKind.Guards :
    ConditionKind → Option String → EffectKind → Option String → Prop
  | unit (asked named : Option String) : Guards .hasUnit asked .removeUnit named
  | promotable (asked named : Option String) :
      Guards .hasPromotableUnit asked .freePromotion named
  | pollution (asked : Option String) :
      Guards .hasPollutionInDeck asked .removeCardFromDeck Option.none
  | card {id : String} (h : id ≠ "") :
      Guards .hasSpecificCardInDeck (some id) .removeCardFromDeck (some id)
  | copper (asked : Option String) {named : Option String}
      (h : named.getD "" = "" ∨ named = some Grade.copper.cardId) :
      Guards .hasCopperInDeck asked .upgradeCardInDeck named
  | deck (asked named : Option String) : Guards .deckNotEmpty asked .revealAndGain named

namespace Condition

/-- The condition compares as its kind naturally does, whether or not it says so. -/
def IsNatural (c : Condition) (kind : ConditionKind) : Prop :=
  c.comparison = none ∨ (c.comparison = some kind.comparison ∧ c.value = kind.operand c.value)

/-- The condition asks whether there is anything for the effect to act on. -/
def Guards (c : Condition) (e : Effect) : Prop :=
  ∃ asks does, c.kind = .known asks ∧ e.kind = .known does ∧ c.IsNatural asks ∧
    asks.Guards c.cardId does e.cardId

variable {c : Condition} {r : Rules} {g : GameState} {results : ResultStack}

/-- A condition that compares naturally compares with the operand of its kind. -/
theorem holds_of_isNatural {kind : ConditionKind} (hkind : c.kind = .known kind)
    (hcompared : isCompared kind c.cardId = true) (hnatural : c.IsNatural kind) :
    c.holds r g results =
      kind.comparison.holds (kind.quantity r g results c.cardId) (kind.operand c.value) := by
  unfold holds
  rw [hkind]
  dsimp only
  rw [if_pos hcompared]
  obtain hnone | ⟨hstated, hvalue⟩ := hnatural
  · rw [hnone]
  · rw [hstated]
    dsimp only
    rw [← hvalue]

/-- A guard holds if what it counts is there at all. -/
theorem Guards.holds_iff {kind : ConditionKind} {does : EffectKind} {named : Option String}
    (hkind : c.kind = .known kind) (hnatural : c.IsNatural kind)
    (h : kind.Guards c.cardId does named) :
    c.holds r g results = true ↔ 0 < kind.quantity r g results c.cardId := by
  have hcompared : isCompared kind c.cardId = true := by
    generalize c.cardId = asked at h
    cases h with
    | card hnamed => exact decide_eq_true hnamed
    | _ => rfl
  rw [holds_of_isNatural hkind hcompared hnatural]
  have hask : kind.comparison = .atLeast ∧ kind.operand c.value = 1 := by
    generalize c.cardId = asked at h
    cases h <;> exact ⟨rfl, rfl⟩
  rw [hask.1, hask.2, Comparison.holds, decide_eq_true_iff]
  exact Iff.rfl

end Condition

/-! ## What searches find -/

namespace Zones

variable (p : Card → Bool)

/-- A search finds a card if there is one in the zones that are searched. -/
theorem isSome_search_iff (z : Zones) (zones : List Zone) :
    (z.search p zones).isSome = true ↔ ∃ zone ∈ zones, ∃ c ∈ z.pile zone, p c = true := by
  induction zones with
  | nil => simp [search]
  | cons first rest ih =>
    unfold search
    rw [List.exists_mem_cons_iff]
    rcases hfound : (z.pile first).find? p with _ | c
    · have hnone : ¬ ∃ c ∈ z.pile first, p c = true := by
        simpa [List.find?_eq_none] using hfound
      exact ih.trans (or_iff_right hnone).symm
    · exact iff_of_true rfl (.inl ⟨c, List.mem_of_find?_eq_some hfound, List.find?_some hfound⟩)

/-- A search of all that a whole-deck effect searches finds a card if there is one to count. -/
theorem isSome_search_searched_iff (z : Zones) :
    (z.search p searched).isSome = true ↔ 0 < z.wholeDeck.countP p := by
  rw [isSome_search_iff, List.countP_pos_iff]
  simp only [searched, List.exists_mem_cons_iff, List.not_mem_nil, false_and, exists_false,
    or_false, pile, wholeDeck, List.mem_append, or_and_right, exists_or]
  rw [or_assoc]
  exact or_congr_right or_comm

/-- Removing at least one card removes some if there is one to count. -/
theorem removing_pos_iff {n : Nat} (hn : 0 < n) (z : Zones) :
    0 < (removing p n z).1 ↔ 0 < z.wholeDeck.countP p := by
  obtain ⟨n, rfl⟩ := Nat.exists_eq_succ_of_ne_zero hn.ne'
  rw [← isSome_search_searched_iff]
  unfold removing
  rcases z.search p searched with _ | ⟨zone, c⟩
  · exact iff_of_false (Nat.lt_irrefl 0) Bool.false_ne_true
  · exact iff_of_true (Nat.succ_pos _) rfl

end Zones

/-- The first cards of a pile, of which there are to be some, are none only if the pile is empty. -/
theorem Pile.firstCards_eq_nil_iff {n : Int} (hn : 0 < n) (p : Pile) :
    p.firstCards n = [] ↔ p = [] := by
  unfold firstCards
  rw [if_pos hn.le, List.take_eq_nil_iff]
  exact or_iff_right (by omega)

namespace Play.SucceedsIff

variable {p : Prop} {x : Play EffectResult} {t : Table}

theorem congr {q : Prop} (h : SucceedsIff p x t) (hpq : p ↔ q) : SucceedsIff q x t := by
  obtain ⟨result, u, hdone, hp⟩ := h
  exact ⟨result, u, hdone, hp.trans hpq⟩

/-- A result that is returned answers for itself. -/
theorem pure {result : EffectResult} (h : result.success = true ↔ p) :
    SucceedsIff p (Pure.pure result) t := ⟨result, t, rfl, h⟩

/-- What is done first may change the table, as long as it does not fail. -/
theorem bind {α : Type} {first : Play α} {next : α → Play EffectResult} {b : α} {u : Table}
    (hfirst : exec first t = (.ok b, u)) (hnext : SucceedsIff p (next b) u) :
    SucceedsIff p (first >>= next) t := by
  obtain ⟨result, v, hdone, hp⟩ := hnext
  exact ⟨result, v, by rw [exec_bind, hfirst]; exact hdone, hp⟩

/-- An action that never fails may be done first, whatever it answers. -/
theorem bind_sure {α : Type} {first : Play α} {next : α → Play EffectResult} (hfirst : Sure first)
    (hnext : ∀ b u, exec first t = (.ok b, u) → SucceedsIff p (next b) u) :
    SucceedsIff p (first >>= next) t := by
  rcases hdone : exec first t with ⟨f | b, u⟩
  · exact (hfirst t f (congrArg Prod.fst hdone)).elim
  · exact bind hdone (hnext b u hdone)

end Play.SucceedsIff

/-! ## Effects that are guarded -/

namespace Assignment

variable {r : Rules} (a : Assignment) (t : Table)

/-- A unit is picked from those that qualify, if there are any, and nothing else is changed. -/
theorem exec_pickUnit_cases (p : Resident → Bool) :
    ∃ dice, (exec (pickUnit p) t = (.ok none, { t with dice }) ∧
        ¬ 0 < t.game.residents.countP p) ∨
      ∃ u i, exec (pickUnit p) t = (.ok (some (u, i)), { t with dice }) ∧
        t.game.residents[i]? = some u ∧ p u = true ∧ 0 < t.game.residents.countP p := by
  let units := t.game.residents.zipIdx.filter fun listed => p listed.1
  have hexec : exec (pickUnit p) t =
      (.ok (t.dice.pick units).1, { t with dice := (t.dice.pick units).2 }) := rfl
  refine ⟨(t.dice.pick units).2, ?_⟩
  rw [hexec]
  rcases hpicked : (t.dice.pick units).1 with _ | ⟨u, i⟩
  · -- Where there is such a unit, a pick cannot come to nothing.
    refine .inl ⟨rfl, fun hcount => ?_⟩
    obtain ⟨u, hu, hp⟩ := List.countP_pos_iff.mp hcount
    obtain ⟨i, hi⟩ := List.getElem?_of_mem hu
    have hmem : (u, i) ∈ units :=
      List.mem_filter.mpr ⟨List.mem_zipIdx_iff_getElem?.mpr hi, hp⟩
    have hsome := (Random.Dice.isSome_pick_iff units t.dice).mpr (List.ne_nil_of_mem hmem)
    rw [hpicked] at hsome
    cases hsome
  · have hmem := List.mem_filter.mp (Random.Dice.mem_of_pick hpicked)
    have hplace := List.mem_zipIdx_iff_getElem?.mp hmem.1
    refine .inr ⟨u, i, rfl, hplace, hmem.2, ?_⟩
    exact List.countP_pos_iff.mpr ⟨u, List.mem_of_getElem? hplace, hmem.2⟩

section Units

variable (hr : r.outOfOrder = [])

include hr

/-- A unit is lost if there is one. -/
theorem removeUnit_succeedsIff :
    Play.SucceedsIff (0 < t.game.residents.length) (a.removeUnit r) t := by
  have hcount : t.game.residents.countP (fun _ => true) = t.game.residents.length :=
    congrFun List.countP_true _
  obtain ⟨dice, ⟨hpicked, hnone⟩ | ⟨u, i, hpicked, -, -, hsome⟩⟩ :=
    exec_pickUnit_cases t fun _ => true
  · rw [hcount] at hnone
    exact .bind hpicked (.pure (iff_of_false Bool.false_ne_true hnone))
  · rw [hcount] at hsome
    exact .bind hpicked (.bind_sure (Roster.sure_killUnit hr _) fun _ _ _ =>
      .pure (iff_of_true rfl hsome))

/-- A free promotion is asked for, and granted, if there is a unit that may be promoted. -/
theorem freePromotion_succeedsIff :
    Play.SucceedsIff (0 < t.game.residents.countP (·.canPromote r.config.maxPromotionLevel))
      (a.freePromotion r) t := by
  obtain ⟨dice, ⟨hpicked, hnone⟩ | ⟨u, i, hpicked, hu, hmay, hsome⟩⟩ :=
    exec_pickUnit_cases t (·.canPromote r.config.maxPromotionLevel)
  · exact .bind hpicked (.pure (iff_of_false Bool.false_ne_true hnone))
  · -- The unit that is asked about is the one that was picked.
    have hgranted : exec (Roster.requestFreePromotion r (.listed i)) { t with dice } =
        (.ok true, { t with dice, promotions := t.promotions ++ [u.unitId] }) := by
      unfold Roster.requestFreePromotion
      rw [Play.exec_serve, if_neg (hr ▸ List.not_mem_nil), Play.exec_game_bind,
        Roster.resident_listed hu]
      dsimp only
      rw [if_pos hmay]
      rfl
    exact .bind hpicked (.bind hgranted (.pure (iff_of_true rfl hsome)))

end Units

/-- Revealing succeeds if there are cards in the deck. -/
theorem revealAndGain_succeedsIff (hr : r.outOfOrder = []) :
    Play.SucceedsIff (0 < t.game.zones.deck.length) (a.revealAndGain r) t := by
  have hcount : 0 < a.magnitudeOr 3 := a.magnitudeOr_pos (by decide)
  have hrevealed : exec (Deck.revealTop r (a.magnitudeOr 3)) t =
      (.ok (t.game.zones.deck.firstCards (a.magnitudeOr 3)),
        (exec (Deck.revealTop r (a.magnitudeOr 3)) t).2) := by
    unfold Deck.revealTop
    rw [Play.exec_serve, if_neg (hr ▸ List.not_mem_nil)]
    rfl
  -- At least one card is revealed, unless there is no card in the deck.
  have hsome : t.game.zones.deck.firstCards (a.magnitudeOr 3) ≠ [] ↔
      0 < t.game.zones.deck.length := by
    rw [List.length_pos_iff]
    exact (Pile.firstCards_eq_nil_iff hcount _).not
  refine .bind hrevealed (.congr ?_ hsome)
  split
  · next hempty =>
    exact .pure (iff_of_false Bool.false_ne_true (not_not.mpr (List.isEmpty_iff.mp hempty)))
  · next hsome =>
    exact .bind_sure (.makeFromGame _) fun _ _ _ =>
      .pure (iff_of_true rfl fun hnil => hsome (List.isEmpty_iff.mpr hnil))

/-- Cards are removed if there is one that is meant. -/
theorem removeCardFromDeck_succeedsIff :
    Play.SucceedsIff (0 < t.game.zones.wholeDeck.countP (r.isMeant a.effect.cardId))
      (a.removeCardFromDeck r) t := by
  have hcount : 0 < (a.magnitudeOr 1).toNat :=
    Int.lt_toNat.mpr (a.magnitudeOr_pos (by decide))
  rw [← Zones.removing_pos_iff _ hcount]
  exact .bind (Play.exec_makeFromGame _ t) (.pure decide_eq_true_iff)

/-- A card is upgraded if there is one of those that are meant, where these can be upgraded. -/
theorem upgradeCardInDeck_succeedsIff :
    Play.SucceedsIff
      ((deckUpgrade? a.effect.upgradedId).isSome = true ∧
        0 < t.game.zones.wholeDeck.countP (·.cardId = a.effect.upgradedId))
      a.upgradeCardInDeck t := by
  rw [← Zones.isSome_search_searched_iff]
  unfold Play.SucceedsIff
  rw [exec_upgradeCardInDeck]
  rcases deckUpgrade? a.effect.upgradedId with _ | upgrade
  · exact ⟨_, _, rfl, iff_of_false Bool.false_ne_true fun h => nomatch h.1⟩
  · rcases t.game.zones.search (·.cardId = a.effect.upgradedId) Zones.searched with _ | ⟨zone, c⟩
    · exact ⟨_, _, rfl, iff_of_false Bool.false_ne_true fun h => nomatch h.2⟩
    · exact ⟨_, _, rfl, iff_of_true rfl ⟨rfl, rfl⟩⟩

/-- The effect that a condition guards succeeds if what the condition counts is there at all. -/
theorem execute_succeedsIff (hr : r.outOfOrder = []) {asks : ConditionKind} {does : EffectKind}
    {asked : Option String} (hdoes : a.effect.kind = .known does)
    (h : asks.Guards asked does a.effect.cardId) (results : ResultStack) :
    Play.SucceedsIff (0 < asks.quantity r t.game results asked) (a.execute r) t := by
  rw [execute_of_known hdoes]
  generalize hnamed : a.effect.cardId = named at h
  -- Each guard counts what its effect needs one of.
  cases h with
  | unit => exact (a.removeUnit_succeedsIff t hr).congr Int.natCast_pos.symm
  | promotable => exact (a.freePromotion_succeedsIff t hr).congr Int.natCast_pos.symm
  | deck => exact (a.revealAndGain_succeedsIff t hr).congr Int.natCast_pos.symm
  | pollution =>
    have hmeant : r.isMeant a.effect.cardId = fun c => r.kindOf c = some .pollution := by
      rw [hnamed]
      rfl
    have hdone := a.removeCardFromDeck_succeedsIff (r := r) t
    rw [hmeant] at hdone
    exact hdone.congr Int.natCast_pos.symm
  | @card id =>
    have hmeant : r.isMeant a.effect.cardId = fun c : Card => some c.cardId = some id := by
      rw [hnamed]
      exact funext fun c => decide_eq_decide.mpr Option.some_inj.symm
    have hdone := a.removeCardFromDeck_succeedsIff (r := r) t
    rw [hmeant] at hdone
    exact hdone.congr Int.natCast_pos.symm
  | copper _ hcopper =>
    have hupgraded : a.effect.upgradedId = Grade.copper.cardId := by
      unfold Effect.upgradedId
      rw [hnamed]
      obtain hempty | hcopper := hcopper
      · exact if_pos hempty
      · rw [hcopper]
        rfl
    have hdone := a.upgradeCardInDeck_succeedsIff t
    rw [hupgraded] at hdone
    exact hdone.congr ((and_iff_right rfl).trans Int.natCast_pos.symm)

/-- A guard is true to its effect: with all services in order the effect succeeds on a table exactly
if the condition that guards it holds there, whatever the magnitude, the targets and the results so
far. -/
theorem execute_succeeds_iff_holds (hr : r.outOfOrder = []) {c : Condition}
    (h : c.Guards a.effect) (results : ResultStack) :
    ∃ result u, exec (a.execute r) t = (.ok result, u) ∧
      (result.success = true ↔ c.holds r t.game results = true) := by
  obtain ⟨asks, does, hasks, hdoes, hnatural, hguards⟩ := h
  have hcounted : c.holds r t.game results = true ↔ 0 < asks.quantity r t.game results c.cardId :=
    Condition.Guards.holds_iff hasks hnatural hguards
  exact (a.execute_succeedsIff t hr hdoes hguards results).congr hcounted.symm

/-- The only pollution card is a curse on the discard pile, which the condition counts and the
effect finds. -/
theorem execute_succeeds_of_curse :
    let r : Rules := { catalog := { cards := [Starter.pollution .curse] } }
    let curse : Card := { serial := 1, instanceId := "curse#1", cardId := "curse" }
    let t : Table :=
      { game := { zones := { discard := [curse] } },
        dice := { twister := { words := #[], used := 0 } } }
    let c : Condition := { kind := .known .hasPollutionInDeck }
    let a : Assignment := { effect := { kind := .known .removeCardFromDeck }, magnitude := 0 }
    c.Guards a.effect ∧ c.holds r t.game {} = true ∧
      ∃ result u, exec (a.execute r) t = (.ok result, u) ∧ result.success = true := by
  intro r curse t c a
  have hguards : c.Guards a.effect := ⟨_, _, rfl, rfl, .inl rfl, .pollution none⟩
  have hholds : c.holds r t.game {} = true := by decide +kernel
  obtain ⟨result, u, hdone, hiff⟩ := execute_succeeds_iff_holds (r := r) a t rfl hguards {}
  exact ⟨hguards, hholds, result, u, hdone, hiff.mpr hholds⟩

end Assignment

end Treasury
