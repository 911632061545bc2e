import Treasury.Proofs.Execution.Exchange
import Treasury.Proofs.Execution.Moving

/-!
# Which cards come onto the table

A card that is on the table after an effect was there before, is a copy of a definition of the
catalog, took the place of a card that gave way, or is a target that was put down for a hand card
that counts as it.

* `Table.Gains` relates two tables of which the second has new copies of one definition besides the
  cards of the first.
* `Pile.taken`: the hand cards that go when cards are put down, which need not be those cards where
  ids are not unique. `Zones.countP_foldl_put` and `Zones.mem_foldl_put_iff` say which cards are
  there afterwards.
* `Assignment.mem_cards_execute`: where the cards come from that are there after an effect.
-/

namespace Treasury

/-! ## Effects that make copies -/

/-- The second table has new copies of a definition besides the cards of the first, temporary ones
or permanent ones. -/
def Table.Gains (cardId : String) (temporary : Bool) (t u : Table) : Prop :=
  ∃ made : List Card, u.game.zones.cards.Perm (made ++ t.game.zones.cards) ∧
    ∀ c ∈ made, c.cardId = cardId ∧ c.temporary = temporary

namespace Table.Gains

variable {r : Rules} {cardId : String} {temporary : Bool} {t u : Table}

instance : IsPreorder Table (Gains cardId temporary) where
  refl _ := ⟨[], .refl _, List.forall_mem_nil _⟩
  trans := by
    rintro t u v ⟨made, hcards, hmade⟩ ⟨more, hcards', hmore⟩
    refine ⟨more ++ made, ?_, fun c hc => (List.mem_append.mp hc).elim (hmore c) (hmade c)⟩
    rw [List.append_assoc]
    exact hcards'.trans (hcards.append_left more)

/-- One copy is put onto a pile. -/
theorem of_newCard (zone : Zone) :
    Gains cardId temporary t { t with game := { (t.game.newCard cardId temporary none).2 with
      zones := t.game.zones.update zone (· ++ [(t.game.newCard cardId temporary none).1]) } } := by
  refine ⟨[(t.game.newCard cardId temporary none).1], List.perm_iff_count.mpr fun x => ?_, ?_⟩
  · have hupdate := t.game.zones.countP_update zone
      (· ++ [(t.game.newCard cardId temporary none).1]) (· == x)
    change (t.game.zones.update zone _).cards.countP _ = List.countP _ _
    rw [List.countP_append] at hupdate ⊢
    omega
  · intro c hc
    rw [List.mem_singleton.mp hc]
    exact ⟨rfl, rfl⟩

theorem addToHand : Keeps (Gains cardId temporary) (Deck.addToHand r cardId temporary) :=
  Play.keeps_serve fun _ => of_newCard .hand

theorem addToDiscard : Keeps (Gains cardId false) (Deck.addToDiscard r cardId) :=
  Play.keeps_serve fun _ => of_newCard .discard

theorem addCopies (n : Nat) : Keeps (Gains cardId false) (Assignment.addCopies r cardId n) := by
  induction n with
  | zero => exact .pure _
  | succ n ih => exact .bind (.map addToDiscard _) fun _ => ih

/-- A treasure that is created is a temporary copy of a definition of the catalog. -/
theorem createTreasure (a : Assignment) (t : Table) :
    (exec (a.createTreasure r) t).2 = t ∨
      ∃ cardId, r.catalog.hasCard cardId = true ∧
        Gains cardId true t (exec (a.createTreasure r) t).2 := by
  unfold Assignment.createTreasure
  split
  · exact .inl rfl
  · next d hd =>
    obtain ⟨grade, -, hdefined⟩ := Option.bind_eq_some_iff.mp hd
    have hid : d.id = grade.cardId := by simpa using List.find?_some hdefined
    refine .inr ⟨d.id, ?_, ?_⟩
    · rw [Catalog.hasCard, hid]
      exact Option.isSome_iff_exists.mpr ⟨d, hdefined⟩
    · exact Keeps.bind (.map addToHand _) (fun _ => .pure _) t

/-- Copies that are added are permanent ones of a definition of the catalog. -/
theorem addCardToDeck (a : Assignment) (t : Table) :
    (exec (a.addCardToDeck r) t).2 = t ∨
      (r.catalog.hasCard (a.effect.cardId.getD "") = true ∧
        Gains (a.effect.cardId.getD "") false t (exec (a.addCardToDeck r) t).2) := by
  unfold Assignment.addCardToDeck
  dsimp only
  split
  · exact .inl rfl
  · next hdefined =>
    have hnamed : ¬ a.effect.cardId.getD "" = "" ∧
        r.catalog.hasCard (a.effect.cardId.getD "") = true := by simpa using hdefined
    refine .inr ⟨hnamed.2, ?_⟩
    exact Keeps.bind (addCopies _) (fun _ => .pure _) t

end Table.Gains

/-! ## Cards that are put down for hand cards -/

/-- Of cards that are taken out of a pile one after another, those that are held there, each with
the card that goes for it. -/
def Pile.taken (p : Pile) : List Card → List (Card × Card)
  | [] => []
  | c :: rest =>
    match p.counterpart? c with
    | some d => (c, d) :: (p.without c).taken rest
    | none => p.taken rest

/-- What is taken for a card counts as it and was in the pile. -/
theorem Pile.of_mem_taken {p : Pile} {cs : List Card} {c d : Card} (h : (c, d) ∈ p.taken cs) :
    c ∈ cs ∧ d ∈ p ∧ d.same c = true := by
  induction cs generalizing p with
  | nil => cases h
  | cons first rest ih =>
    unfold taken at h
    split at h
    · next e he =>
      rcases List.mem_cons.mp h with heq | h
      · obtain ⟨rfl, rfl⟩ := Prod.mk.inj heq
        exact ⟨List.mem_cons_self, mem_of_counterpart? he, same_of_counterpart? he⟩
      · -- The rest is taken from what the first card has left of the pile.
        obtain ⟨hc, hd, hsame⟩ := ih h
        exact ⟨List.mem_cons_of_mem _ hc, (without_sublist p first).subset hd, hsame⟩
    · obtain ⟨hc, hd, hsame⟩ := ih h
      exact ⟨List.mem_cons_of_mem _ hc, hd, hsame⟩

namespace Zones

/-- A card is taken out of the hand and put onto a zone; one that is not in hand stays. -/
def put (zone : Zone) (z : Zones) (c : Card) : Zones :=
  if z.hand.holds c then (z.update .hand (·.without c)).update zone (· ++ [c]) else z

theorem toBottom_eq_foldl (z : Zones) (cs : List Card) :
    (z.toBottom cs).2 = cs.foldl (put .deck) z := by
  induction cs generalizing z with
  | nil => rfl
  | cons c rest ih =>
    unfold toBottom
    rw [List.foldl_cons, put]
    split
    · exact ih _
    · exact ih _

theorem settled_eq_foldl (r : Rules) (boosts : Boosts) (cs : List Card) (z : Zones) :
    (Deck.settled r boosts cs z).2 = (cs.filter (Deck.isTreasure r)).foldl (put .discard) z := by
  induction cs generalizing z with
  | nil => rfl
  | cons c rest ih =>
    unfold Deck.settled
    by_cases h : Deck.isTreasure r c = true
    · rw [if_pos h, List.filter_cons_of_pos h, List.foldl_cons]
      exact ih _
    · rw [if_neg h, List.filter_cons_of_neg h]
      exact ih z

/-- Of the cards of a sort, the table loses those that are taken out of the hand and has those that
are put down for them. -/
theorem countP_foldl_put {zone : Zone} (hzone : zone ≠ .hand) (q : Card → Bool) (cs : List Card)
    (z : Zones) :
    (cs.foldl (put zone) z).cards.countP q + (z.hand.taken cs).countP (q ·.2) =
      z.cards.countP q + (z.hand.taken cs).countP (q ·.1) := by
  induction cs generalizing z with
  | nil => rfl
  | cons c rest ih =>
    rw [List.foldl_cons]
    unfold Pile.taken
    cases hold : z.hand.counterpart? c with
    | none =>
      have hnot : put zone z c = z := by
        rw [put, Pile.holds_eq_isSome, hold]
        rfl
      rw [hnot]
      exact ih z
    | some d =>
      have hput : put zone z c = (z.update .hand (·.without c)).update zone (· ++ [c]) := by
        rw [put, Pile.holds_eq_isSome, hold]
        rfl
      have hhand : (put zone z c).hand = z.hand.without c := by
        rw [hput]
        exact pile_update_of_ne _ hzone.symm _
      have hrest := ih (put zone z c)
      rw [hhand] at hrest
      -- The hand has the counterpart less, and the zone has the card more.
      have hless := countP_update z .hand (·.without c) q
      have hmore := countP_update (z.update .hand (·.without c)) zone (· ++ [c]) q
      have hgone := Pile.countP_without (p := z.hand) hold q
      have hpile : (z.pile .hand) = z.hand := rfl
      rw [← hput, List.countP_append, List.countP_singleton] at hmore
      rw [hpile] at hless
      rw [List.countP_cons, List.countP_cons]
      dsimp only
      omega

end Zones

/-- A card from outside is on the table afterwards if it is put down for a hand card. -/
theorem Zones.mem_foldl_put_iff {zone : Zone} (hzone : zone ≠ .hand) {cs : List Card} {z : Zones}
    {c : Card} (hc : c ∉ z.cards) :
    c ∈ (cs.foldl (put zone) z).cards ↔ ∃ d, (c, d) ∈ z.hand.taken cs := by
  have hcount := countP_foldl_put hzone (· == c) cs z
  have hbefore : z.cards.countP (· == c) = 0 := List.count_eq_zero.mpr hc
  -- What goes was in hand, so it is not the card.
  have hgone : (z.hand.taken cs).countP (·.2 == c) = 0 := by
    refine List.countP_eq_zero.mpr fun ⟨x, d⟩ hx hd => hc ?_
    obtain ⟨-, hhand, -⟩ := Pile.of_mem_taken hx
    obtain rfl : d = c := by simpa using hd
    exact mem_cards_iff_exists.mpr ⟨.hand, hhand⟩
  rw [hbefore, hgone, Nat.add_zero, Nat.zero_add] at hcount
  rw [← List.count_pos_iff, List.count, hcount, List.countP_pos_iff]
  constructor
  · rintro ⟨⟨x, d⟩, hx, hd⟩
    obtain rfl : x = c := by simpa using hd
    exact ⟨d, hx⟩
  · rintro ⟨d, hd⟩
    exact ⟨(c, d), hd, by simp⟩

namespace Assignment

/-- Moving hand cards under the deck puts the targets down there, if the service is in order. -/
theorem zones_moveToDeckBottom (a : Assignment) (r : Rules) (t : Table) :
    (exec (a.moveToDeckBottom r) t).2.game.zones =
      if Service.moveToBottom ∈ r.outOfOrder then t.game.zones
      else a.targets.foldl (Zones.put .deck) t.game.zones := by
  unfold moveToDeckBottom
  rw [exec_bind, Deck.moveToBottom, Play.exec_serve]
  by_cases hout : Service.moveToBottom ∈ r.outOfOrder
  · rw [if_pos hout, if_pos hout]
  · rw [if_neg hout, if_neg hout]
    exact Zones.toBottom_eq_foldl t.game.zones a.targets

/-- Settling puts the treasures among the targets down on the discard pile, if the service is in
order. The gold that is gained for them does nothing to the piles. -/
theorem zones_settle (a : Assignment) (r : Rules) (t : Table) :
    (exec (a.settle r) t).2.game.zones =
      if Service.settle ∈ r.outOfOrder then t.game.zones
      else (a.targets.filter (Deck.isTreasure r)).foldl (Zones.put .discard) t.game.zones := by
  unfold settle
  rw [exec_ite]
  split
  · next hnone =>
    rw [List.isEmpty_iff.mp hnone]
    split <;> rfl
  · have hgold := Keeps.of_first (Deck.settle r a.targets) (Table.Aside.gainOfSettled (r := r) a) t
    rw [hgold.zones, Deck.settle, Play.exec_serve]
    split
    · rfl
    · exact Zones.settled_eq_foldl r t.game.boosts a.targets t.game.zones

end Assignment

/-! ## Every effect -/

/-- Moving its targets, an effect puts one of them down for a hand card that counts as it. -/
def Effect.PutsDown (e : Effect) (r : Rules) (targets : List Card) (g : GameState) (c : Card) :
    Prop :=
  e.kind = .known .moveToDeckBottom ∧ Service.moveToBottom ∉ r.outOfOrder ∧
    ∃ d, (c, d) ∈ g.zones.hand.taken targets

namespace Assignment

variable {a : Assignment} {r : Rules} {t : Table} {c : Card}

/-- A treasure is a copy of a definition. -/
theorem hasCard_of_isTreasure (h : Deck.isTreasure r c = true) :
    r.catalog.hasCard c.cardId = true := by
  have hkind : r.catalog.kind? c.cardId = some .treasure := of_decide_eq_true h
  rw [Catalog.kind?, Option.map_eq_some_iff] at hkind
  obtain ⟨d, hd, -⟩ := hkind
  exact Option.isSome_iff_exists.mpr ⟨d, hd⟩

/-- A card that is on the table after an effect was there before, is a copy of a definition of the
catalog, came in the place of a card that gave way, or was put down for a hand card. -/
theorem mem_cards_execute (h : c ∈ (exec (a.execute r) t).2.game.zones.cards) :
    c ∈ t.game.zones.cards ∨ r.catalog.hasCard c.cardId = true ∨
      (∃ old, a.effect.Exchanges r a.targets t.game old c.cardId) ∨
      a.effect.PutsDown r a.targets t.game c := by
  refine or_iff_not_imp_left.mpr fun hnew => ?_
  -- What is made is a copy of a definition.
  have hgains : ∀ {cardId : String} {temporary : Bool} {u : Table},
      r.catalog.hasCard cardId = true → Table.Gains cardId temporary t u →
        c ∈ u.game.zones.cards → r.catalog.hasCard c.cardId = true := by
    rintro cardId temporary u hdefined ⟨made, hcards, hmade⟩ hc
    rcases List.mem_append.mp (hcards.subset hc) with hc | hc
    · exact (hmade c hc).1 ▸ hdefined
    · exact absurd hc hnew
  rcases hkind : a.effect.kind with kind | word
  · have hexecute : a.execute r = a.executeKind r kind := execute_of_known hkind r
    rw [hexecute] at h
    by_cases hbrings : kind.bringsIn = true
    · cases kind
      case createTempTreasure =>
        obtain hsame | ⟨cardId, hdefined, hmore⟩ := Table.Gains.createTreasure (r := r) a t
        · exact absurd (hsame ▸ h) hnew
        · exact .inl (hgains hdefined hmore h)
      case addCardToDeck =>
        obtain hsame | ⟨hdefined, hmore⟩ := Table.Gains.addCardToDeck (r := r) a t
        · exact absurd (hsame ▸ h) hnew
        · exact .inl (hgains hdefined hmore h)
      case permanentUpgrade =>
        simp only [Effect.exchanges_of_permanentUpgrade hkind]
        exact .inr (.inl ((mem_cards_upgraded h).resolve_left hnew))
      case upgradeCardInDeck =>
        simp only [Effect.exchanges_of_upgradeCardInDeck hkind]
        change c ∈ (exec a.upgradeCardInDeck t).2.game.zones.cards at h
        obtain ⟨hsame, -⟩ | ⟨zone, d, old, cardId, -, hdone, hexchange⟩ :=
          upgradeCardInDeck_cases a t
        · exact absurd (hsame ▸ h) hnew
        · rw [hdone] at h
          have hc := (Zones.mem_update_exchanged zone h).resolve_left hnew
          exact .inr (.inl ⟨old, (hexchange old c.cardId).mpr ⟨rfl, hc ▸ rfl⟩⟩)
      case moveToDeckBottom =>
        change c ∈ (exec (a.moveToDeckBottom r) t).2.game.zones.cards at h
        rw [zones_moveToDeckBottom] at h
        split at h
        · exact absurd h hnew
        · next hin =>
          exact .inr (.inr ⟨hkind, hin, (Zones.mem_foldl_put_iff (by decide) hnew).mp h⟩)
      case settleCard =>
        change c ∈ (exec (a.settle r) t).2.game.zones.cards at h
        rw [zones_settle] at h
        split at h
        · exact absurd h hnew
        · obtain ⟨d, hd⟩ := (Zones.mem_foldl_put_iff (by decide) hnew).mp h
          obtain ⟨hc, -, -⟩ := Pile.of_mem_taken hd
          exact .inl (hasCard_of_isTreasure (List.mem_filter.mp hc).2)
      all_goals cases hbrings
    · have hsheds := Table.Sheds.executeKind (r := r) a (Bool.eq_false_iff.mpr hbrings) t
      exact absurd (hsheds.cards.subset h) hnew
  · rw [execute_of_unknown hkind] at h
    exact absurd h hnew

end Assignment

end Treasury
