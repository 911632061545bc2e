import Treasury.Proofs.Execution.Headcount
import Treasury.Proofs.Game.Ids

/-!
# Removing cards, all at once

Whole-deck effects remove cards one by one, and each time the search starts over on what is left.
Where instance ids are distinct this comes to one pass: the cards that satisfy the search are listed
in its order, through the deck, the discard pile and the hand, and the first of them are gone.

* `Zones.matching` lists the cards that a search may find, and `Zones.lacking` takes given cards out
  of the zones that are searched.
* `Zones.removing_eq`: removing up to `n` cards takes out the first `n` of those listed.
* `Assignment.execute_removeCardFromDeck` says it of the effect, with what it reports.
-/

namespace Treasury

/-- In a pile with distinct ids, taking a card away leaves exactly the others. -/
theorem Pile.without_eq_filter {p : Pile} {c : Card} (hids : (p.map (·.instanceId)).Nodup)
    (hc : c ∈ p) : p.without c = p.filter (· ∉ [c]) := by
  induction p with
  | nil => cases hc
  | cons d rest ih =>
    rw [List.map_cons, List.nodup_cons] at hids
    unfold without
    by_cases hdc : d = c
    · subst hdc
      -- Its id is nowhere else in the pile, so the card itself is not either.
      have hrest : d ∉ rest := fun hd => hids.1 (List.mem_map_of_mem hd)
      have hothers : rest.filter (· ∉ [d]) = rest := by
        apply List.filter_eq_self.mpr
        intro e he
        simpa using ne_of_mem_of_not_mem he hrest
      rw [List.eraseP_cons_of_pos (by simp [Card.same]), List.filter_cons_of_neg (by simp), hothers]
    · have hrest : c ∈ rest := (List.mem_cons.mp hc).resolve_left (Ne.symm hdc)
      have hid : d.instanceId ≠ c.instanceId :=
        fun hsame => hids.1 (hsame ▸ List.mem_map_of_mem hrest)
      rw [List.eraseP_cons_of_neg (by simpa [Card.same] using hid),
        List.filter_cons_of_pos (by simpa using hdc)]
      exact congrArg (d :: ·) (ih hids.2 hrest)

namespace Zones

/-- The cards that satisfy `p` among those that whole-deck effects search, in the order of the
search. -/
def matching (z : Zones) (p : Card → Bool) : List Card := (z.deck ++ z.discard ++ z.hand).filter p

/-- The zones after given cards are taken out of the deck, the discard pile and the hand. All others
keep their zones and their order. -/
def lacking (z : Zones) (gone : List Card) : Zones :=
  { z with
    deck := z.deck.filter (· ∉ gone)
    discard := z.discard.filter (· ∉ gone)
    hand := z.hand.filter (· ∉ gone) }

/-- Zones with the same four piles are the same. -/
theorem ext_pile {z z' : Zones} (h : ∀ zone, z.pile zone = z'.pile zone) : z = z' := by
  obtain ⟨deck, hand, discard, play⟩ := z
  congr
  exacts [h .deck, h .hand, h .discard, h .play]

variable (p : Card → Bool) (z : Zones)

theorem pile_lacking {zone : Zone} (h : zone ≠ .play) (gone : List Card) :
    (z.lacking gone).pile zone = (z.pile zone).filter (· ∉ gone) := by
  cases zone with
  | play => exact absurd rfl h
  | _ => rfl

@[simp]
theorem lacking_nil : z.lacking [] = z := by
  simp [lacking]

/-- Cards may be taken out one after another. -/
theorem lacking_cons (c : Card) (cs : List Card) :
    z.lacking (c :: cs) = (z.lacking [c]).lacking cs := by
  have hpile : ∀ q : Pile, q.filter (· ∉ c :: cs) = (q.filter (· ∉ [c])).filter (· ∉ cs) := by
    intro q
    rw [List.filter_filter]
    apply List.filter_congr
    intro d _
    simp [Bool.and_comm]
  simp only [lacking, hpile]

/-- What is left to be found are the cards that were not taken out. -/
theorem matching_lacking (gone : List Card) :
    (z.lacking gone).matching p = (z.matching p).filter (· ∉ gone) := by
  simp only [matching, lacking, ← List.filter_append, List.filter_filter, Bool.and_comm]

/-- A search finds the first of the cards that it may find. -/
theorem head?_matching : (z.matching p).head? = (z.search p searched).map Prod.snd := by
  rw [matching, List.head?_filter, List.find?_append, List.find?_append]
  simp only [searched, search, pile]
  cases z.deck.find? p <;> cases z.discard.find? p <;> cases z.hand.find? p <;> rfl

/-! ## Where ids are distinct -/

theorem pile_sublist_cards (zone : Zone) : (z.pile zone).Sublist z.cards := by
  unfold cards
  cases zone with
  | deck => simp [pile]
  | hand => simp [pile]
  | discard => exact (List.sublist_append_right _ _).trans (List.sublist_append_left _ _)
  | play => exact List.sublist_append_right _ _

section Distinct

variable {z} (hids : z.ids.Nodup)

include hids

/-- The cards of a pile have distinct ids. -/
theorem nodup_pile (zone : Zone) : ((z.pile zone).map (·.instanceId)).Nodup :=
  List.Nodup.sublist ((z.pile_sublist_cards zone).map _) (Multiset.coe_nodup.mp hids)

/-- No card lies in two zones. -/
theorem not_mem_pile_of_ne {zone other : Zone} (hne : other ≠ zone) {c : Card}
    (hc : c ∈ z.pile zone) : c ∉ z.pile other := by
  have hcards : z.cards.Nodup := List.Nodup.of_map _ (Multiset.coe_nodup.mp hids)
  simp only [cards, List.nodup_append, List.mem_append] at hcards
  intro hother
  cases zone <;> cases other <;> simp only [pile] at hc hother <;> grind

/-- No card is listed twice among those that a search may find. -/
theorem nodup_matching : (z.matching p).Nodup := by
  have hcards : z.cards.Nodup := List.Nodup.of_map _ (Multiset.coe_nodup.mp hids)
  simp only [cards, List.nodup_append, List.mem_append] at hcards
  apply List.Nodup.filter
  simp only [List.nodup_append, List.mem_append]
  grind

/-- A card that was found is taken out of the zones that are searched by taking it from the one in
which it was found. -/
theorem update_without_eq_lacking {zone : Zone} {c : Card}
    (hfound : z.search p searched = some (zone, c)) :
    z.update zone (·.without c) = z.lacking [c] := by
  have hc := (of_search hfound).2
  have hzone := ne_play_of_search hfound
  apply ext_pile
  intro other
  -- Ids differ, so the card is in the pile where it was found and in no other.
  by_cases hother : other = zone
  · subst hother
    rw [pile_update_self, pile_lacking z hzone, Pile.without_eq_filter (nodup_pile hids other) hc]
  · rw [pile_update_of_ne z hother]
    by_cases hplay : other = .play
    · rw [hplay]
      rfl
    · rw [pile_lacking z hplay]
      symm
      apply List.filter_eq_self.mpr
      intro d hd
      have hdc : d ≠ c := ne_of_mem_of_not_mem hd (not_mem_pile_of_ne hids hother hc)
      simpa using hdc

/-- Removing up to `n` cards, with a search for each of them, takes out the first `n` of those that
one search may find. -/
theorem removing_eq (n : Nat) :
    removing p n z = (((z.matching p).take n).length, z.lacking ((z.matching p).take n)) := by
  induction n generalizing z with
  | zero => simp [removing]
  | succ n ih =>
    have hhead := z.head?_matching p
    unfold removing
    rcases hfound : z.search p searched with _ | ⟨zone, c⟩
    · rw [hfound] at hhead
      simp [List.head?_eq_none_iff.mp hhead]
    · rw [hfound] at hhead
      obtain ⟨rest, hlist⟩ := List.head?_eq_some_iff.mp hhead
      -- The rest of the list is what the next search may find.
      have hrest : (z.lacking [c]).matching p = rest := by
        have hnodup := hlist ▸ nodup_matching p hids
        rw [matching_lacking, hlist, List.filter_cons_of_neg (by simp)]
        apply List.filter_eq_self.mpr
        intro d hd
        simpa using ne_of_mem_of_not_mem hd (List.nodup_cons.mp hnodup).1
      have hless : (z.lacking [c]).ids.Nodup := by
        rw [← update_without_eq_lacking p hids hfound]
        exact Multiset.nodup_of_le
          (Pile.ids_le_of_sublist (z.update_without_sublist zone c)) hids
      dsimp only
      rw [update_without_eq_lacking p hids hfound, ih hless, hrest, hlist, List.take_succ_cons,
        ← lacking_cons, List.length_cons]

end Distinct

end Zones

namespace Assignment

variable {r : Rules} (a : Assignment) (t : Table)

/-- Where ids are distinct, removing cards from the deck removes the first of those that are meant,
in the order of deck, discard pile and hand: as many as the magnitude says, or one if it is not
positive, or all if there are fewer. All other cards keep their zones and their order, no others
than the piles change, and the result counts the cards that went and is a success if there are
any. -/
theorem execute_removeCardFromDeck (hkind : a.effect.kind = .known .removeCardFromDeck)
    (hids : t.game.zones.ids.Nodup) :
    let meant := t.game.zones.matching (r.isMeant a.effect.cardId)
    let wanted := if a.magnitude > 0 then a.magnitude else 1
    let gone := meant.take wanted.toNat
    exec (a.execute r) t =
      (.ok { kind := a.effect.kind, success := 0 < gone.length, count := gone.length,
             value := a.magnitude },
        { t with game := { t.game with zones := t.game.zones.lacking gone } }) ∧
      (gone.length : Int) = min wanted meant.length := by
  intro meant wanted gone
  -- Removing one card after another comes to the first ones that match.
  have hremoved : t.game.zones.removing (r.isMeant a.effect.cardId) (a.magnitudeOr 1).toNat =
      (gone.length, t.game.zones.lacking gone) := Zones.removing_eq _ hids _
  constructor
  · rw [execute_of_known hkind]
    unfold executeKind removeCardFromDeck
    rw [exec_bind, Play.exec_makeFromGame]
    dsimp only
    rw [hremoved]
    rfl
  · have hwanted : 0 < wanted := a.magnitudeOr_pos (by decide)
    have hlength : gone.length = min wanted.toNat meant.length := List.length_take
    omega

/-- Two coppers are removed, of which the second lies on the discard pile. The silver above the
first one stays, and so do the coppers in hand and in the play area. -/
theorem execute_removeCardFromDeck_twoCoppers :
    let r : Rules := {}
    let copper (n : Nat) : Card :=
      { serial := n, instanceId := numbered "copper" n, cardId := "copper" }
    let silver : Card := { serial := 0, instanceId := "silver#0", cardId := "silver" }
    let z : Zones :=
      { deck := [silver, copper 1], discard := [copper 2], hand := [copper 3], play := [copper 4] }
    let t : Table := { game := { zones := z }, dice := { twister := { words := #[], used := 0 } } }
    let a : Assignment :=
      { effect := { kind := .known .removeCardFromDeck, cardId := some "copper" }, magnitude := 2 }
    let left : Zones := { deck := [silver], hand := [copper 3], play := [copper 4] }
    a.effect.kind = .known .removeCardFromDeck ∧ t.game.zones.ids.Nodup ∧
      exec (a.execute r) t =
        (.ok { kind := .known .removeCardFromDeck, success := true, count := 2, value := 2 },
          { t with game := { t.game with zones := left } }) := by
  intro r copper silver z t a left
  have hids : t.game.zones.ids.Nodup := by decide +kernel
  have hgone : (t.game.zones.matching (r.isMeant a.effect.cardId)).take
      (if a.magnitude > 0 then a.magnitude else 1).toNat = [copper 1, copper 2] := by
    decide +kernel
  have hleft : t.game.zones.lacking [copper 1, copper 2] = left := by decide +kernel
  have hdone := (execute_removeCardFromDeck (r := r) a t rfl hids).1
  refine ⟨rfl, hids, hdone.trans ?_⟩
  rw [hgone, hleft]
  rfl

end Assignment

end Treasury
