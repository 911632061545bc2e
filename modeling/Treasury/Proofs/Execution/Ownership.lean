import Treasury.Proofs.Execution.Evolution
import Treasury.Proofs.Execution.Household

/-!
# Whose cards are on the table

Which units own cards on the table, and how effects change that. A new copy has no owner, or that of
a card for which it comes, and so a unit that owns a card after an effect owned one before, or it
owns one of the targets of the effect.

* `Pile.owners` are the owners of some cards.
* `Table.Inherits` relates two tables of which the second has owners of the first only, apart from
  those of some given cards.
* `Assignment.inherits_execute`: an effect leaves owners of before and of its targets.
-/

namespace Treasury

/-- The owners of cards, each as often as it owns one. -/
def Pile.owners (p : Pile) : List String := p.filterMap (·.owner)

theorem Pile.mem_owners_iff {p : Pile} {id : String} :
    id ∈ p.owners ↔ ∃ c ∈ p, c.owner = some id := List.mem_filterMap

/-- Some of the cards have some of the owners. -/
theorem Pile.owners_subset {p q : Pile} (h : p ⊆ q) : p.owners ⊆ q.owners := fun id hid => by
  obtain ⟨c, hc, howner⟩ := mem_owners_iff.mp hid
  exact mem_owners_iff.mpr ⟨c, h hc, howner⟩

/-- The owners of cards on the table. -/
def Table.owners (t : Table) : List String := Pile.owners t.game.zones.cards

/-- No card of a unit is left once its cards leave all zones. -/
theorem Zones.mem_owners_withoutOwner {z : Zones} {id owner : String}
    (h : id ∈ Pile.owners (z.withoutOwner owner).cards) :
    id ∈ Pile.owners z.cards ∧ id ≠ owner := by
  refine ⟨Pile.owners_subset (z.withoutOwner_sublist owner).subset h, ?_⟩
  rintro rfl
  obtain ⟨c, hc, howner⟩ := Pile.mem_owners_iff.mp h
  simp [cards, withoutOwner, howner] at hc

/-- A card that is exchanged for one of the same owner as another leaves the owners of before and
that one. -/
theorem Zones.mem_owners_update_exchanged {z : Zones} (zone : Zone) {c new : Card} {id : String}
    (h : id ∈ Pile.owners (z.update zone (·.exchanged c new)).cards) :
    id ∈ Pile.owners z.cards ∨ new.owner = some id := by
  obtain ⟨d, hd, howner⟩ := Pile.mem_owners_iff.mp h
  rcases mem_update_exchanged zone hd with hd | rfl
  · exact .inl (Pile.mem_owners_iff.mpr ⟨d, hd, howner⟩)
  · exact .inr howner

/-- Every owner of a card on the second table owned one on the first, or owns one of the given
cards. -/
def Table.Inherits (outside : List Card) (t u : Table) : Prop :=
  ∀ id ∈ u.owners, id ∈ t.owners ∨ id ∈ Pile.owners outside

namespace Table.Inherits

variable {r : Rules} {outside : List Card} {α : Type}

instance : IsPreorder Table (Inherits outside) where
  refl _ _ := .inl
  trans _ _ _ h k id hid := (k id hid).elim (h id) .inr

/-- What makes no cards makes no owners. -/
theorem keeps_of_moves {x : Play α} (h : Keeps (Moves outside) x) : Keeps (Inherits outside) x := by
  refine h.mono fun t u hmoves id hid => ?_
  obtain ⟨c, hc, howner⟩ := Pile.mem_owners_iff.mp hid
  exact (hmoves.zones.mem c hc).imp (fun hc => Pile.mem_owners_iff.mpr ⟨c, hc, howner⟩)
    (fun hc => Pile.mem_owners_iff.mpr ⟨c, hc, howner⟩)

/-! ## Making cards -/

/-- A new copy without an owner is put onto a pile. -/
theorem of_newCard (zone : Zone) (cardId : String) (temporary : Bool) (t : Table) :
    t.Inherits outside { t with game := { (t.game.newCard cardId temporary none).2 with
      zones := t.game.zones.update zone (· ++ [(t.game.newCard cardId temporary none).1]) } } := by
  intro id hid
  obtain ⟨c, hc, howner⟩ := Pile.mem_owners_iff.mp hid
  rcases Zones.mem_update_append zone hc with hc | rfl
  · exact .inl (Pile.mem_owners_iff.mpr ⟨c, hc, howner⟩)
  · cases howner

theorem addToHand (cardId : String) (temporary : Bool) :
    Keeps (Inherits outside) (Deck.addToHand r cardId temporary) :=
  Play.keeps_serve fun t => of_newCard .hand cardId temporary t

theorem addToDiscard (cardId : String) : Keeps (Inherits outside) (Deck.addToDiscard r cardId) :=
  Play.keeps_serve fun t => of_newCard .discard cardId false t

theorem createTreasure (a : Assignment) : Keeps (Inherits outside) (a.createTreasure r) := by
  unfold Assignment.createTreasure
  split
  · exact .pure _
  · exact .bind (.map (addToHand _ _) _) fun _ => .pure _

theorem addCopies (cardId : String) (n : Nat) :
    Keeps (Inherits outside) (Assignment.addCopies r cardId n) := by
  induction n with
  | zero => exact .pure _
  | succ n ih => exact .bind (.map (addToDiscard cardId) _) fun _ => ih

theorem addCardToDeck (a : Assignment) : Keeps (Inherits outside) (a.addCardToDeck r) :=
  .ite (.pure _) (.bind (addCopies _ _) fun _ => .pure _)

/-- The copy that takes the place of an upgraded card has the owner of the target. -/
theorem upgraded {cs : List Card} (hcs : ∀ c ∈ cs, c ∈ outside) (t : Table) :
    t.Inherits outside { t with game := (Assignment.upgraded r cs t.game).2 } := by
  induction cs generalizing t with
  | nil => exact Std.Refl.refl (r := Inherits outside) t
  | cons c rest ih =>
    have hrest := fun t => ih (fun d hd => hcs d (List.mem_cons_of_mem _ hd)) t
    rw [Assignment.upgraded_cons]
    obtain ⟨hdone, -⟩ | ⟨grade, old, -, -, hdone⟩ := Assignment.upgraded_singleton_cases r c t.game
      <;> rw [hdone]
    · exact hrest t
    · -- The first target is exchanged before the others.
      refine IsTrans.trans (r := Inherits outside) _
        { t with game := t.game.exchanging .hand c grade.cardId } _ (fun id hid => ?_) (hrest _)
      refine (Zones.mem_owners_update_exchanged .hand hid).imp_right fun howner => ?_
      exact Pile.mem_owners_iff.mpr ⟨c, hcs c List.mem_cons_self, howner⟩

/-- The copy that takes the place of an upgraded card has its owner. -/
theorem upgradeCardInDeck (a : Assignment) : Keeps (Inherits outside) a.upgradeCardInDeck := by
  intro t
  rw [Assignment.exec_upgradeCardInDeck]
  split
  · next upgrade zone c _ hfound =>
    -- The card was found in a zone, so its owner owns a card on the table.
    have hc : c ∈ t.game.zones.cards :=
      Zones.mem_cards_iff_exists.mpr ⟨zone, (Zones.of_search hfound).2⟩
    intro id hid
    refine (Zones.mem_owners_update_exchanged zone hid).elim .inl fun howner => .inl ?_
    exact Pile.mem_owners_iff.mpr ⟨c, hc, howner⟩
  · exact Std.Refl.refl (r := Inherits outside) t

end Table.Inherits

/-- Whoever owns a card after an effect owned one before, or owns one of the targets. -/
theorem Assignment.inherits_execute (a : Assignment) (r : Rules) :
    Keeps (Table.Inherits a.targets) (a.execute r) := by
  rcases hkind : a.effect.kind with kind | word
  · rw [execute_of_known hkind]
    cases kind
    -- Four kinds make cards.
    case createTempTreasure => exact .createTreasure a
    case addCardToDeck => exact .addCardToDeck a
    case permanentUpgrade => exact .bind (fun t => .upgraded (fun _ hc => hc) t) fun _ => .pure _
    case upgradeCardInDeck => exact .upgradeCardInDeck a
    all_goals exact .keeps_of_moves (Table.Moves.executeKind a (fun _ hc => hc) rfl)
  · rw [execute_of_unknown hkind]
    exact .pure _

end Treasury
