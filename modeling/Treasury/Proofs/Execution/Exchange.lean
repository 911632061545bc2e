import Treasury.Proofs.Execution.Headcount

/-!
# Cards that give way to better ones

Two kinds of effects exchange cards. A permanent upgrade exchanges treasures in hand for treasures
of the next grade, target by target, and a whole-deck upgrade exchanges the first copy of a card
that it finds. In both cases the card that gives way is the first one of its pile that counts as the
one that is meant (`Pile.counterpart?`), and a new permanent copy takes its place.

* `Assignment.Upgrades`: at the turn of one of its targets, a permanent upgrade exchanges a card for
  one of a grade.
* `Effect.Exchanges`: an effect of either kind exchanges a card for a copy of a definition.
* `Assignment.upgraded_count_eq_zero_iff`: what it takes that nothing is upgraded.
* `Assignment.mem_cards_upgraded`, `Assignment.exists_mem_cards_upgraded`: which cards are there
  after permanent upgrades.
-/

namespace Treasury

/-! ## Piles and zones -/

namespace Pile

variable {p : Pile} {c d : Card}

/-- The first card of a pile that counts as the given one. It is the one that goes when the given
one is taken away or exchanged. -/
def counterpart? (p : Pile) (c : Card) : Option Card := p.find? (·.same c)

/-- A pile holds a card if it has a counterpart there. -/
theorem holds_eq_isSome (p : Pile) (c : Card) : p.holds c = (p.counterpart? c).isSome :=
  List.isSome_find?.symm

theorem mem_of_counterpart? (h : p.counterpart? c = some d) : d ∈ p := List.mem_of_find?_eq_some h

theorem same_of_counterpart? (h : p.counterpart? c = some d) : d.same c = true :=
  List.find?_some (p := fun x : Card => x.same c) h

/-- Taking a card away and exchanging it change the pile where its counterpart is. -/
theorem exists_split_of_counterpart? (h : p.counterpart? c = some d) :
    ∃ before after, p = before ++ d :: after ∧ p.without c = before ++ after ∧
      ∀ new, p.exchanged c new = before ++ new :: after := by
  obtain ⟨hsame, before, after, rfl, hbefore⟩ := List.find?_eq_some_iff_append.mp h
  -- No card before the counterpart counts as the one that is given.
  have hnone : ∀ x ∈ before, x.same c = false := fun x hx => by simpa using hbefore x hx
  refine ⟨before, after, rfl, ?_, fun new => ?_⟩
  · rw [without, List.eraseP_append_right _ fun x hx => Bool.eq_false_iff.mp (hnone x hx)]
    exact congrArg (before ++ ·) (List.eraseP_cons_of_pos (p := fun x : Card => x.same c) hsame)
  · have hplace : (before ++ d :: after).findIdx (·.same c) = before.length := by
      rw [List.findIdx_append, List.findIdx_eq_length_of_false hnone, if_neg (Nat.lt_irrefl _),
        List.findIdx_cons, hsame, cond_true, Nat.zero_add]
    rw [exchanged, hplace, List.set_append_right _ _ le_rfl, Nat.sub_self, List.set_cons_zero]

/-- Of the cards of a sort, a pile loses the counterpart of a card that is taken away. -/
theorem countP_without (h : p.counterpart? c = some d) (q : Card → Bool) :
    (p.without c).countP q + (if q d then 1 else 0) = p.countP q := by
  obtain ⟨before, after, rfl, hwithout, -⟩ := exists_split_of_counterpart? h
  rw [hwithout, List.countP_append, List.countP_append, List.countP_cons, Nat.add_assoc]

/-- Of the cards of a sort, a pile loses the counterpart of a card that is exchanged, and has the
new one for it. -/
theorem countP_exchanged (h : p.counterpart? c = some d) (new : Card) (q : Card → Bool) :
    (p.exchanged c new).countP q + (if q d then 1 else 0) =
      p.countP q + (if q new then 1 else 0) := by
  obtain ⟨before, after, rfl, -, hexchanged⟩ := exists_split_of_counterpart? h
  rw [hexchanged, List.countP_append, List.countP_append, List.countP_cons, List.countP_cons]
  omega

/-- The new card is in the pile. -/
theorem mem_exchanged_self (h : p.counterpart? c = some d) (new : Card) :
    new ∈ p.exchanged c new := by
  obtain ⟨before, after, -, -, hexchanged⟩ := exists_split_of_counterpart? h
  rw [hexchanged]
  exact List.mem_append_right _ List.mem_cons_self

/-- A card that does not count as the one that is exchanged stays. -/
theorem mem_exchanged_of_not_same {x : Card} (hx : x ∈ p) (h : x.same c = false) (new : Card) :
    x ∈ p.exchanged c new := by
  cases hcounter : p.counterpart? c with
  | none =>
    -- Nothing counts as the card, so nothing is exchanged.
    have hnone : ∀ y ∈ p, y.same c = false := fun y hy => by
      simpa using List.find?_eq_none.mp hcounter y hy
    rwa [exchanged, List.findIdx_eq_length_of_false hnone, List.set_eq_of_length_le le_rfl]
  | some d =>
    obtain ⟨before, after, rfl, -, hexchanged⟩ := exists_split_of_counterpart? hcounter
    rw [hexchanged]
    rw [List.mem_append, List.mem_cons] at hx ⊢
    refine hx.imp_right fun hx => .inr (hx.resolve_left ?_)
    rintro rfl
    rw [same_of_counterpart? hcounter] at h
    cases h

end Pile

namespace Zones

/-- Of the cards of a sort, a changed pile has those that it has then for those that it had. -/
theorem countP_update (z : Zones) (zone : Zone) (f : Pile → Pile) (q : Card → Bool) :
    (z.update zone f).cards.countP q + (z.pile zone).countP q =
      z.cards.countP q + (f (z.pile zone)).countP q := by
  cases zone <;> simp only [cards, update, pile, List.countP_append] <;> omega

/-- Of the cards of a sort, the table has the new one for the one that gives way. -/
theorem countP_update_exchanged {z : Zones} {zone : Zone} {c d : Card}
    (h : (z.pile zone).counterpart? c = some d) (new : Card) (q : Card → Bool) :
    (z.update zone (·.exchanged c new)).cards.countP q + (if q d then 1 else 0) =
      z.cards.countP q + (if q new then 1 else 0) := by
  have hupdate := countP_update z zone (·.exchanged c new) q
  have hpile := Pile.countP_exchanged h new q
  omega

end Zones

/-- The game after the counterpart of a card in a zone has given way to a new permanent copy of a
definition. -/
def GameState.exchanging (g : GameState) (zone : Zone) (c : Card) (cardId : String) : GameState :=
  let made := g.newCard cardId false c.owner
  { made.2 with zones := g.zones.update zone (·.exchanged c made.1) }

/-- When a card gives way, the game evolves. -/
theorem GameState.Evolves.exchanging (outside : List Card) (g : GameState) (zone : Zone) (c : Card)
    (cardId : String) : g.Evolves outside (g.exchanging zone c cardId) :=
  .of_newCard cardId false c.owner (g.zones.ids_update_exchanged_le zone c _) fun _ hd =>
    Zones.mem_update_exchanged zone hd

/-! ## Permanent upgrades -/

/-- The grade that a permanent upgrade gives a treasure, unless it is of the highest one. -/
def Rules.upgrade? (r : Rules) (c : Card) : Option Grade := (r.treasureGrade? c).bind Grade.next?

namespace Assignment

variable {r : Rules} {g : GameState} {c old : Card} {cs : List Card} {grade : Grade}

/-- When the turn comes to one of the targets that are upgraded one after another, `old` is its
counterpart in hand and gives way to a treasure of a grade. -/
def Upgrades (r : Rules) (targets : List Card) (g : GameState) (old : Card) (grade : Grade) :
    Prop :=
  ∃ before c after, targets = before ++ c :: after ∧ r.upgrade? c = some grade ∧
    (upgraded r before g).2.zones.hand.counterpart? c = some old

/-- A treasure below the highest grade that the hand holds has a grade to be given and a counterpart
to give way. -/
theorem upgradable_iff : ((r.upgrade? c).isSome = true ∧ g.zones.hand.holds c = true) ↔
    ∃ grade old, r.upgrade? c = some grade ∧ g.zones.hand.counterpart? c = some old := by
  rw [Pile.holds_eq_isSome, Option.isSome_iff_exists, Option.isSome_iff_exists,
    exists_and_exists_comm]

/-- At the turn of a target it is passed over, or its counterpart in hand gives way. -/
theorem upgraded_singleton_cases (r : Rules) (c : Card) (g : GameState) :
    (upgraded r [c] g = (0, g) ∧
        ¬ ∃ grade old, r.upgrade? c = some grade ∧ g.zones.hand.counterpart? c = some old) ∨
      ∃ grade old, r.upgrade? c = some grade ∧ g.zones.hand.counterpart? c = some old ∧
        upgraded r [c] g = (1, g.exchanging .hand c grade.cardId) := by
  rw [← upgradable_iff]
  unfold upgraded
  -- It takes a next grade and a card in hand that answers to this one.
  split
  · next hgrade =>
    refine .inl ⟨rfl, fun h => ?_⟩
    rw [Rules.upgrade?, hgrade] at h
    cases h.1
  · next grade hgrade =>
    split
    · next hheld =>
      obtain ⟨old, hold⟩ := Option.isSome_iff_exists.mp (Pile.holds_eq_isSome _ c ▸ hheld)
      exact .inr ⟨grade, old, hgrade, hold, rfl⟩
    · next hheld => exact .inl ⟨rfl, fun h => hheld h.2⟩

/-- The targets are upgraded one after another. -/
theorem upgraded_cons (r : Rules) (c : Card) (rest : List Card) (g : GameState) :
    upgraded r (c :: rest) g =
      ((upgraded r [c] g).1 + (upgraded r rest (upgraded r [c] g).2).1,
        (upgraded r rest (upgraded r [c] g).2).2) := by
  simp only [upgraded]
  split
  · simp
  · split
    · rw [Nat.add_comm]
    · simp

/-- What happens at the turns of the targets happens at the turn of the first or at those of the
rest. -/
theorem upgrades_cons_iff : Upgrades r (c :: cs) g old grade ↔
    (r.upgrade? c = some grade ∧ g.zones.hand.counterpart? c = some old) ∨
      Upgrades r cs (upgraded r [c] g).2 old grade := by
  constructor
  · rintro ⟨before, d, after, hsplit, hgrade, hold⟩
    -- The target is the first one if there are none before it.
    obtain ⟨rfl, hfirst⟩ | ⟨before, rfl, rfl⟩ := List.cons_eq_append_iff.mp hsplit
    · obtain ⟨rfl, rfl⟩ := List.cons.inj hfirst
      exact .inl ⟨hgrade, hold⟩
    · rw [upgraded_cons] at hold
      exact .inr ⟨before, d, after, rfl, hgrade, hold⟩
  · rintro (⟨hgrade, hold⟩ | ⟨before, d, after, rfl, hgrade, hold⟩)
    · exact ⟨[], c, cs, rfl, hgrade, hold⟩
    · refine ⟨c :: before, d, after, rfl, hgrade, ?_⟩
      rwa [upgraded_cons]

/-- Nothing is upgraded if no target is a treasure below the highest grade that the hand holds. -/
theorem upgraded_count_eq_zero_iff (r : Rules) (cs : List Card) (g : GameState) :
    (upgraded r cs g).1 = 0 ↔
      ¬ ∃ c ∈ cs, (r.upgrade? c).isSome = true ∧ g.zones.hand.holds c = true := by
  induction cs with
  | nil =>
    refine iff_of_true rfl ?_
    rintro ⟨_, hc, -⟩
    cases hc
  | cons c rest ih =>
    rw [upgraded_cons, List.exists_mem_cons_iff]
    obtain ⟨hdone, hnot⟩ | ⟨grade, old, hgrade, hold, hdone⟩ := upgraded_singleton_cases r c g <;>
      rw [hdone]
    · rw [Nat.zero_add, ih, or_iff_right (mt upgradable_iff.mp hnot)]
    · exact iff_of_false (by omega)
        (not_not_intro (.inl (upgradable_iff.mpr ⟨grade, old, hgrade, hold⟩)))

/-- Cards that are there after permanent upgrades were there before or took the place of others. -/
theorem mem_cards_upgraded (h : c ∈ (upgraded r cs g).2.zones.cards) :
    c ∈ g.zones.cards ∨ ∃ old grade, Upgrades r cs g old grade ∧ c.cardId = grade.cardId := by
  induction cs generalizing g with
  | nil => exact .inl h
  | cons first rest ih =>
    rw [upgraded_cons] at h
    simp only [upgrades_cons_iff]
    obtain ⟨hdone, -⟩ | ⟨grade, old, hgrade, hold, hdone⟩ := upgraded_singleton_cases r first g <;>
      rw [hdone] at h ⊢
    · exact (ih h).imp_right fun ⟨old, grade, hrest, hid⟩ => ⟨old, grade, .inr hrest, hid⟩
    · rcases ih h with hmem | ⟨old', grade', hrest, hid⟩
      -- A card that was there after the first turn may be the new copy of that turn.
      · refine (Zones.mem_update_exchanged .hand hmem).imp_right fun hnew => ?_
        exact ⟨old, grade, .inl ⟨hgrade, hold⟩, hnew ▸ rfl⟩
      · exact .inr ⟨old', grade', .inr hrest, hid⟩

/-- A hand card that no target counts as stays in hand. -/
theorem mem_hand_upgraded (h : c ∈ g.zones.hand) (hcs : ∀ d ∈ cs, c.same d = false) :
    c ∈ (upgraded r cs g).2.zones.hand := by
  induction cs generalizing g with
  | nil => exact h
  | cons first rest ih =>
    rw [upgraded_cons]
    refine ih ?_ fun d hd => hcs d (List.mem_cons_of_mem _ hd)
    obtain ⟨hdone, -⟩ | ⟨grade, old, -, -, hdone⟩ := upgraded_singleton_cases r first g <;>
      rw [hdone]
    · exact h
    · exact Pile.mem_exchanged_of_not_same h (hcs first List.mem_cons_self) _

/-- Unless a target has an id that is still to be made, what takes the place of an upgraded card
stays there: a new copy of the next grade. -/
theorem exists_mem_cards_upgraded (h : Upgrades r cs g old grade)
    (hcs : ∀ c ∈ cs, ∀ cardId n, g.instancesMade < n → c.instanceId ≠ numbered cardId n) :
    ∃ c ∈ (upgraded r cs g).2.zones.cards, c.cardId = grade.cardId ∧ g.copiesMade < c.serial := by
  induction cs generalizing g with
  | nil =>
    obtain ⟨before, c, after, hsplit, -⟩ := h
    simp at hsplit
  | cons first rest ih =>
    have hrest := fun c hc => hcs c (List.mem_cons_of_mem first hc)
    rw [upgraded_cons]
    obtain ⟨hdone, hnot⟩ | ⟨grade', old', hgrade, hold, hdone⟩ :=
      upgraded_singleton_cases r first g <;> rw [upgrades_cons_iff, hdone] at h <;> rw [hdone]
    · exact ih (h.resolve_left fun hfirst => hnot ⟨grade, old, hfirst⟩) hrest
    · rcases h with ⟨hsame, -⟩ | h
      · -- The new copy is not exchanged in turn, since no target is named like it.
        obtain rfl : grade' = grade := Option.some.inj (hgrade.symm.trans hsame)
        have hnew := Pile.mem_exchanged_self hold (g.newCard grade'.cardId false first.owner).1
        refine ⟨_, Zones.mem_cards_iff_exists.mpr ⟨.hand, mem_hand_upgraded hnew fun d hd => ?_⟩,
          rfl, Nat.lt_succ_self _⟩
        exact decide_eq_false fun hid =>
          hrest d hd grade'.cardId (g.instancesMade + 1) (Nat.lt_succ_self _) hid.symm
      · obtain ⟨c, hc, hid, hserial⟩ := ih h fun c hc id n hn =>
          hrest c hc id n ((Nat.lt_succ_self _).trans hn)
        exact ⟨c, hc, hid, (Nat.lt_succ_self _).trans hserial⟩

end Assignment

/-! ## Both kinds of effects -/

/-- The id of the card that a whole-deck upgrade looks for: the one that the effect names, or else
copper. -/
def Effect.upgradedId (e : Effect) : String :=
  let named := e.cardId.getD ""
  if named = "" then Grade.copper.cardId else named

namespace Effect

variable {e : Effect} {r : Rules} {targets : List Card} {g : GameState} {old : Card}
  {cardId : String}

/-- A whole-deck upgrade lets a card in a zone give way to a copy of a definition: the counterpart
there of the first copy that is found. -/
def DeckUpgrades (e : Effect) (g : GameState) (old : Card) (cardId : String) : Prop :=
  deckUpgrade? e.upgradedId = some cardId ∧ ∃ zone c,
    g.zones.search (·.cardId = e.upgradedId) Zones.searched = some (zone, c) ∧
      (g.zones.pile zone).counterpart? c = some old

/-- Carried out on some targets, an effect lets a card give way to a new permanent copy of a
definition. -/
def Exchanges (e : Effect) (r : Rules) (targets : List Card) (g : GameState) (old : Card)
    (cardId : String) : Prop :=
  (e.kind = .known .permanentUpgrade ∧
      ∃ grade, Assignment.Upgrades r targets g old grade ∧ cardId = grade.cardId) ∨
    (e.kind = .known .upgradeCardInDeck ∧ e.DeckUpgrades g old cardId)

theorem exchanges_of_permanentUpgrade (h : e.kind = .known .permanentUpgrade) :
    e.Exchanges r targets g old cardId ↔
      ∃ grade, Assignment.Upgrades r targets g old grade ∧ cardId = grade.cardId := by
  simp [Exchanges, h]

theorem exchanges_of_upgradeCardInDeck (h : e.kind = .known .upgradeCardInDeck) :
    e.Exchanges r targets g old cardId ↔ e.DeckUpgrades g old cardId := by
  simp [Exchanges, h]

/-- Effects of other kinds exchange nothing. -/
theorem not_exchanges (hgrade : e.kind ≠ .known .permanentUpgrade)
    (hdeck : e.kind ≠ .known .upgradeCardInDeck) : ¬ e.Exchanges r targets g old cardId := by
  rintro (⟨hkind, -⟩ | ⟨hkind, -⟩)
  · exact hgrade hkind
  · exact hdeck hkind

end Effect

namespace Assignment

/-- A permanent upgrade leaves the upgraded game, and answers how many cards gave way. -/
theorem exec_upgradeTreasure (a : Assignment) (r : Rules) (t : Table) :
    exec (a.upgradeTreasure r) t =
      (.ok (a.done (upgraded r a.targets t.game).1 a.magnitude),
        { t with game := (upgraded r a.targets t.game).2 }) := rfl

/-- A whole-deck upgrade exchanges the first copy that is found, if it can be upgraded. -/
theorem exec_upgradeCardInDeck (a : Assignment) (t : Table) :
    exec a.upgradeCardInDeck t =
      match deckUpgrade? a.effect.upgradedId,
        t.game.zones.search (·.cardId = a.effect.upgradedId) Zones.searched with
      | some upgrade, some (zone, c) =>
        (.ok (a.done 1 a.magnitude), { t with game := t.game.exchanging zone c upgrade })
      | _, _ => (.ok a.failed, t) := by
  unfold upgradeCardInDeck
  rw [Play.exec_game_bind]
  change exec (match deckUpgrade? a.effect.upgradedId,
    t.game.zones.search (·.cardId = a.effect.upgradedId) Zones.searched with
      | some upgrade, some (zone, c) => _ | _, _ => _) t = _
  rcases deckUpgrade? a.effect.upgradedId with _ | upgrade
  · rfl
  · rcases t.game.zones.search (·.cardId = a.effect.upgradedId) Zones.searched with _ | ⟨zone, c⟩
    · rfl
    · rfl

/-- A whole-deck upgrade lets one card give way, or changes nothing. -/
theorem upgradeCardInDeck_cases (a : Assignment) (t : Table) :
    ((exec a.upgradeCardInDeck t).2 = t ∧
        ∀ old cardId, ¬ a.effect.DeckUpgrades t.game old cardId) ∨
      ∃ zone c old cardId, (t.game.zones.pile zone).counterpart? c = some old ∧
        (exec a.upgradeCardInDeck t).2 = { t with game := t.game.exchanging zone c cardId } ∧
        ∀ old' cardId', a.effect.DeckUpgrades t.game old' cardId' ↔
          old' = old ∧ cardId' = cardId := by
  unfold Effect.DeckUpgrades
  rw [exec_upgradeCardInDeck]
  rcases deckUpgrade? a.effect.upgradedId with _ | upgrade
  · exact .inl ⟨rfl, fun _ _ h => nomatch h.1⟩
  · rcases hfound : t.game.zones.search (·.cardId = a.effect.upgradedId) Zones.searched with
      _ | ⟨zone, c⟩
    · exact .inl ⟨rfl, fun _ _ ⟨_, _, _, h, _⟩ => nomatch h⟩
    · -- The card is in the zone where it is found, so it has a counterpart there.
      obtain ⟨old, hold⟩ := Option.isSome_iff_exists.mp
        (Pile.holds_eq_isSome _ c ▸ Zones.holds_of_search hfound)
      refine .inr ⟨zone, c, old, upgrade, hold, rfl, fun old' cardId' => ⟨?_, ?_⟩⟩
      · rintro ⟨hid, zone', c', hsame, hold'⟩
        obtain ⟨rfl, rfl⟩ := Prod.mk.inj (Option.some.inj hsame)
        exact ⟨Option.some.inj (hold'.symm.trans hold), (Option.some.inj hid).symm⟩
      · rintro ⟨rfl, rfl⟩
        exact ⟨rfl, zone, c, rfl, hold⟩

end Assignment

end Treasury
