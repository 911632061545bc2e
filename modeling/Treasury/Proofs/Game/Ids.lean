import Mathlib.Algebra.Order.Group.Multiset
import Mathlib.Data.List.Perm.Basic
import Treasury.Game.State

/-!
# Instance ids and places

Which instance ids are on the table, counted with repetition, and how the moves of single cards
change them.

* `numbered_inj`: ids made from different numbers differ, whatever the ids of the definitions look
  like.
* `Zones.Moves` relates the piles before and after cards are moved or removed: no id is there more
  often than before, and every card was there before or is one of some given cards.
-/

namespace Treasury

/-! ## Ids made from numbers -/

/-- A number can be read off a word that ends with it, if what stands before it is known. -/
theorem number_inj (stem : String) {m n : Nat} (h : stem ++ m.repr = stem ++ n.repr) : m = n := by
  rw [String.append_right_inj] at h
  have hdigits : Nat.toDigits 10 m = Nat.toDigits 10 n := by
    simpa only [Nat.toList_repr] using congrArg String.toList h
  rw [← @Nat.ofDigitChars_ten_toDigits m, hdigits, Nat.ofDigitChars_ten_toDigits]

/-- The id of the `n`-th copy, of a given card. -/
def numbered (cardId : String) (n : Nat) : String := s!"{cardId}#{n}"

theorem toList_numbered (cardId : String) (n : Nat) :
    (numbered cardId n).toList = cardId.toList ++ '#' :: Nat.toDigits 10 n := by
  simp [numbered, toString, Nat.toList_repr]

/-- The number can be read off an id, even if there are number signs in the id of the definition:
digits are no number signs, so what follows the last one of them is the number. -/
theorem numbered_inj {c d : String} {m n : Nat} (h : numbered c m = numbered d n) : m = n := by
  have hread : ∀ (cardId : String) (k : Nat),
      (numbered cardId k).toList.reverse.takeWhile Char.isDigit = (Nat.toDigits 10 k).reverse := by
    intro cardId k
    rw [toList_numbered, List.reverse_append, List.reverse_cons, List.append_assoc,
      List.takeWhile_append_of_pos]
    · simp
    · intro x hx
      exact Nat.isDigit_of_mem_toDigits (by decide) (by decide) (List.mem_reverse.mp hx)
  -- Read from the end, the ids show the same digits.
  have hdigits : Nat.toDigits 10 m = Nat.toDigits 10 n := by
    rw [← List.reverse_inj, ← hread c m, ← hread d n, h]
  rw [← @Nat.ofDigitChars_ten_toDigits m, hdigits, Nat.ofDigitChars_ten_toDigits]

/-! ## Cards in piles -/

namespace Pile

/-- The instance ids of a pile, counted with repetition. -/
def ids (p : Pile) : Multiset String := ↑(p.map (·.instanceId))

@[simp]
theorem ids_nil : ids [] = 0 := rfl

@[simp]
theorem ids_cons (c : Card) (p : Pile) : ids (c :: p) = c.instanceId ::ₘ ids p := rfl

@[simp]
theorem ids_append (p q : Pile) : ids (p ++ q) = ids p + ids q := by
  rw [ids, List.map_append, ← Multiset.coe_add]
  rfl

theorem mem_ids {p : Pile} {id : String} : id ∈ p.ids ↔ ∃ c ∈ p, c.instanceId = id := by
  rw [ids, Multiset.mem_coe, List.mem_map]

/-- Some of the cards have some of the ids. -/
theorem ids_le_of_sublist {p q : Pile} (h : p.Sublist q) : p.ids ≤ q.ids :=
  Multiset.coe_le.mpr (h.map _).subperm

/-- The same cards in another order have the same ids. -/
theorem ids_of_perm {p q : Pile} (h : p.Perm q) : p.ids = q.ids := Multiset.coe_eq_coe.mpr (h.map _)

/-- Taking a card away leaves the others. -/
theorem without_sublist (p : Pile) (c : Card) : (p.without c).Sublist p := List.eraseP_sublist

/-- A pile that holds a card has its id and those of the rest. -/
theorem ids_of_holds {p : Pile} {c : Card} (h : p.holds c) :
    p.ids = c.instanceId ::ₘ (p.without c).ids := by
  obtain ⟨d, hd, hsame⟩ := List.any_eq_true.mp h
  obtain ⟨e, before, after, -, he, hp, hwithout⟩ := List.exists_of_eraseP (p := (·.same c)) hd hsame
  have hid : e.instanceId = c.instanceId := by simpa [Card.same] using he
  rw [without, hwithout, hp, ids_append, ids_cons, ids_append, hid, Multiset.add_cons]

/-- Exchanging a card brings in one id at most. -/
theorem ids_exchanged_le (p : Pile) (c new : Card) :
    (p.exchanged c new).ids ≤ new.instanceId ::ₘ p.ids := by
  unfold exchanged
  by_cases h : p.findIdx (·.same c) < p.length
  · rw [ids_of_perm (List.set_perm_cons_eraseIdx h new), ids_cons]
    exact Multiset.cons_le_cons _ (ids_le_of_sublist (List.eraseIdx_sublist _ _))
  · rw [List.set_eq_of_length_le (Nat.le_of_not_lt h)]
    exact Multiset.le_cons_self _ _

/-- Exchanging a card brings in the new one. -/
theorem mem_exchanged {p : Pile} {c new d : Card} (h : d ∈ p.exchanged c new) : d ∈ p ∨ d = new :=
  List.mem_or_eq_of_mem_set h

end Pile

namespace Zones

/-- The instance ids on the table, counted with repetition. -/
def ids (z : Zones) : Multiset String := z.cards.ids

theorem ids_eq (z : Zones) : z.ids = z.deck.ids + z.hand.ids + z.discard.ids + z.play.ids := by
  simp only [ids, cards, Pile.ids_append]

theorem mem_cards {z : Zones} {c : Card} :
    c ∈ z.cards ↔ c ∈ z.deck ∨ c ∈ z.hand ∨ c ∈ z.discard ∨ c ∈ z.play := by
  simp only [cards, List.mem_append, or_assoc]

/-- A card lies in some zone. -/
theorem mem_cards_iff_exists {z : Zones} {c : Card} : c ∈ z.cards ↔ ∃ zone, c ∈ z.pile zone := by
  rw [mem_cards]
  constructor
  · rintro (h | h | h | h)
    exacts [⟨.deck, h⟩, ⟨.hand, h⟩, ⟨.discard, h⟩, ⟨.play, h⟩]
  · rintro ⟨zone, h⟩
    cases zone
    exacts [.inl h, .inr (.inl h), .inr (.inr (.inl h)), .inr (.inr (.inr h))]

/-- A changed pile gives its new ids for its old ones. -/
theorem ids_update (z : Zones) (zone : Zone) (f : Pile → Pile) :
    (z.update zone f).ids + (z.pile zone).ids = z.ids + (f (z.pile zone)).ids := by
  cases zone <;> simp only [ids_eq, update, pile] <;> ac_rfl

/-- Exchanging a card in one zone brings in one id at most. -/
theorem ids_update_exchanged_le (z : Zones) (zone : Zone) (c new : Card) :
    (z.update zone (·.exchanged c new)).ids ≤ new.instanceId ::ₘ z.ids := by
  -- The old pile is added on both sides, since multisets have no subtraction to speak of.
  refine le_of_add_le_add_right (a := (z.pile zone).ids) ?_
  calc (z.update zone (·.exchanged c new)).ids + (z.pile zone).ids
      = z.ids + ((z.pile zone).exchanged c new).ids := ids_update z zone _
    _ ≤ z.ids + new.instanceId ::ₘ (z.pile zone).ids :=
      add_le_add_right (Pile.ids_exchanged_le _ c new) _
    _ = new.instanceId ::ₘ z.ids + (z.pile zone).ids := by
      rw [Multiset.add_cons, Multiset.cons_add]

/-- Exchanging a card in one zone brings in the new one. -/
theorem mem_update_exchanged {z : Zones} (zone : Zone) {c new d : Card}
    (h : d ∈ (z.update zone (·.exchanged c new)).cards) : d ∈ z.cards ∨ d = new := by
  obtain ⟨other, hd⟩ := mem_cards_iff_exists.mp h
  by_cases hzone : other = zone
  · rw [hzone, pile_update_self] at hd
    exact (Pile.mem_exchanged hd).imp_left fun hd => mem_cards_iff_exists.mpr ⟨zone, hd⟩
  · rw [pile_update_of_ne z hzone] at hd
    exact .inl (mem_cards_iff_exists.mpr ⟨other, hd⟩)

/-- A card put onto one zone brings in its id. -/
theorem ids_update_append (z : Zones) (zone : Zone) (c : Card) :
    (z.update zone (· ++ [c])).ids = c.instanceId ::ₘ z.ids := by
  have key := ids_update z zone (· ++ [c])
  rw [Pile.ids_append, Pile.ids_cons, Pile.ids_nil, ← add_assoc, add_right_comm,
    add_left_inj] at key
  rw [key, Multiset.add_cons, add_zero]

/-- A card put onto one zone is there. -/
theorem mem_update_append {z : Zones} (zone : Zone) {c d : Card}
    (h : d ∈ (z.update zone (· ++ [c])).cards) : d ∈ z.cards ∨ d = c := by
  obtain ⟨other, hd⟩ := mem_cards_iff_exists.mp h
  by_cases hzone : other = zone
  · rw [hzone, pile_update_self, List.mem_append, List.mem_singleton] at hd
    exact hd.imp_left fun hd => mem_cards_iff_exists.mpr ⟨zone, hd⟩
  · rw [pile_update_of_ne z hzone] at hd
    exact .inl (mem_cards_iff_exists.mpr ⟨other, hd⟩)

/-- Taking a card away from one zone leaves the others. -/
theorem update_without_sublist (z : Zones) (zone : Zone) (c : Card) :
    (z.update zone (·.without c)).cards.Sublist z.cards := by
  have hpile := fun p : Pile => p.without_sublist c
  cases zone
  · exact (((hpile _).append_right _).append_right _).append_right _
  · exact (((hpile _).append_left _).append_right _).append_right _
  · exact ((hpile _).append_left _).append_right _
  · exact (hpile _).append_left _

/-- Without the cards of an owner, the others are left. -/
theorem withoutOwner_sublist (z : Zones) (owner : String) :
    (z.withoutOwner owner).cards.Sublist z.cards :=
  ((List.filter_sublist.append List.filter_sublist).append List.filter_sublist).append
    List.filter_sublist

/-- The second piles come of the first by moving and removing cards: no id is there more often than
before, and every card was there before or is one of the given ones. -/
structure Moves (outside : List Card) (z z' : Zones) : Prop where
  /-- No id is there more often than before. -/
  ids_le : z'.ids ≤ z.ids
  /-- Every card was there before or is one of the given ones. -/
  mem : ∀ c ∈ z'.cards, c ∈ z.cards ∨ c ∈ outside

namespace Moves

variable {outside : List Card} {z z' : Zones}

instance : IsPreorder Zones (Moves outside) where
  refl _ := ⟨le_rfl, fun _ h => .inl h⟩
  trans _ _ _ h k := ⟨k.ids_le.trans h.ids_le, fun c hc => (k.mem c hc).elim (h.mem c) .inr⟩

/-- Some of the cards, in any order and in other piles, are cards of before. -/
theorem of_subperm (h : z'.cards.Subperm z.cards) : Moves outside z z' where
  ids_le := by
    obtain ⟨left, hperm, hsub⟩ := h
    exact (Pile.ids_of_perm hperm).ge.trans (Pile.ids_le_of_sublist hsub)
  mem _ hc := .inl (h.subset hc)

/-- A hand card goes onto another pile, as the given copy of it. -/
theorem handTo {c : Card} (hc : c ∈ outside) {z : Zones} (h : z.hand.holds c) (zone : Zone) :
    Moves outside z ((z.update .hand (·.without c)).update zone (· ++ [c])) where
  ids_le := by
    rw [ids_update_append, ids_eq, ids_eq]
    simp only [update, Pile.ids_of_holds h, Multiset.add_cons, Multiset.cons_add]
    exact le_rfl
  mem d hd := by
    rcases mem_update_append zone hd with hd | rfl
    · exact .inl ((update_without_sublist z .hand c).subset hd)
    · exact .inr hc

/-- Cards are put under the deck. -/
theorem toBottom (cs : List Card) (hcs : ∀ c ∈ cs, c ∈ outside) (z : Zones) :
    Moves outside z (z.toBottom cs).2 := by
  induction cs generalizing z with
  | nil => exact Std.Refl.refl z
  | cons c rest ih =>
    have hrest := ih fun d hd => hcs d (List.mem_cons_of_mem _ hd)
    unfold Zones.toBottom
    split
    · next h => exact IsTrans.trans _ _ _ (handTo (hcs c (List.mem_cons_self ..)) h .deck) (hrest _)
    · exact hrest z

/-- A card is laid away. -/
theorem layAway {c : Card} (hc : c ∈ outside) (z : Zones) : Moves outside z (z.layAway c) := by
  unfold Zones.layAway
  split
  · next h => exact handTo hc h .discard
  · exact Std.Refl.refl z

end Moves

end Zones

end Treasury
