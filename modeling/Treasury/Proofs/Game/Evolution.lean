import Treasury.Proofs.Game.Ids
import Treasury.Proofs.Play

/-!
# How games evolve

A game goes on by moving and removing cards and by making new copies with the next numbers.
`GameState.Evolves` says so of two states, and everything about identity follows from it:

* `Evolves.distinct`: ids that differ from each other and from those still to be made stay so.
* `Evolves.wellmade`: if all ids on the table are made by the game and differ, they still do.
* `Evolves.coherent`: if no two copies have one serial number, no two copies do later on.
* `Evolves.of_moves`, `Evolves.of_newCard`: the two ways in which a game goes on.
-/

namespace Treasury

namespace GameState

/-- What counts for the identity of cards: the piles and the numbers made so far. -/
def inventory (g : GameState) : Zones × Nat × Nat := (g.zones, g.instancesMade, g.copiesMade)

/-- New copies, made after the first state and until the second, with numbers of their own. -/
structure Fresh (g g' : GameState) (new : List Card) : Prop where
  /-- No two of them are one physical copy. -/
  serials : (new.map (·.serial)).Nodup
  /-- No two of them have one id. -/
  ids : (new.map (·.instanceId)).Nodup
  /-- They are newer than the first state. -/
  serial_range : ∀ c ∈ new, g.copiesMade < c.serial ∧ c.serial ≤ g'.copiesMade
  /-- Their ids are made from numbers of their own. -/
  id_eq : ∀ c ∈ new, ∃ n, g.instancesMade < n ∧ n ≤ g'.instancesMade ∧
    c.instanceId = numbered c.cardId n

/-- The second state comes of the first by moving and removing cards and by making new copies. All
cards on the table were there before, are one of the given ones or are new. -/
structure Evolves (outside : List Card) (g g' : GameState) : Prop where
  /-- Numbers of ids are not used again. -/
  instances : g.instancesMade ≤ g'.instancesMade
  /-- Numbers of physical copies are not used again. -/
  copies : g.copiesMade ≤ g'.copiesMade
  /-- What is on the table was there before or is new. -/
  cards : ∃ new, Fresh g g' new ∧ g'.zones.ids ≤ g.zones.ids + Pile.ids new ∧
    ∀ c ∈ g'.zones.cards, c ∈ g.zones.cards ∨ c ∈ outside ∨ c ∈ new

theorem Fresh.nil (g g' : GameState) : Fresh g g' [] where
  serials := List.nodup_nil
  ids := List.nodup_nil
  serial_range _ h := nomatch h
  id_eq _ h := nomatch h

/-- What was made until a state was made until any later one. -/
theorem Fresh.mono {g g' g'' : GameState} {new : List Card} (h : Fresh g g' new)
    (hinst : g'.instancesMade ≤ g''.instancesMade) (hcopies : g'.copiesMade ≤ g''.copiesMade) :
    Fresh g g'' new where
  serials := h.serials
  ids := h.ids
  serial_range c hc := ⟨(h.serial_range c hc).1, (h.serial_range c hc).2.trans hcopies⟩
  id_eq c hc := by
    obtain ⟨n, hlow, hhigh, hid⟩ := h.id_eq c hc
    exact ⟨n, hlow, hhigh.trans hinst, hid⟩

/-- A new copy has numbers that were not used before. -/
theorem Fresh.newCard (g : GameState) (cardId : String) (temporary : Bool) (owner : Option String) :
    Fresh g (g.newCard cardId temporary owner).2 [(g.newCard cardId temporary owner).1] where
  serials := List.nodup_singleton _
  ids := List.nodup_singleton _
  serial_range c hc := by
    rw [List.mem_singleton.mp hc]
    exact ⟨Nat.lt_succ_self _, le_rfl⟩
  id_eq c hc := by
    rw [List.mem_singleton.mp hc]
    exact ⟨g.instancesMade + 1, Nat.lt_succ_self _, le_rfl, rfl⟩

/-- Copies that are made later on differ from those made before. -/
theorem Fresh.append {g g' g'' : GameState} {new more : List Card} (h : Fresh g g' new)
    (k : Fresh g' g'' more) (hinst : g.instancesMade ≤ g'.instancesMade)
    (hinst' : g'.instancesMade ≤ g''.instancesMade) (hcopies : g.copiesMade ≤ g'.copiesMade)
    (hcopies' : g'.copiesMade ≤ g''.copiesMade) : Fresh g g'' (new ++ more) where
  serials := by
    rw [List.map_append]
    -- The number of copies in the middle state parts the earlier ones from the later ones.
    refine h.serials.append k.serials fun n hn hn' => ?_
    obtain ⟨c, hc, rfl⟩ := List.mem_map.mp hn
    obtain ⟨d, hd, hcd⟩ := List.mem_map.mp hn'
    have := (h.serial_range c hc).2
    have := (k.serial_range d hd).1
    omega
  ids := by
    rw [List.map_append]
    refine h.ids.append k.ids fun id hid hid' => ?_
    obtain ⟨c, hc, rfl⟩ := List.mem_map.mp hid
    obtain ⟨d, hd, hcd⟩ := List.mem_map.mp hid'
    obtain ⟨m, -, hm, hcm⟩ := h.id_eq c hc
    obtain ⟨n, hn, -, hdn⟩ := k.id_eq d hd
    have := numbered_inj (hdn.symm.trans (hcd.trans hcm))
    omega
  serial_range c hc := by
    rcases List.mem_append.mp hc with hc | hc
    · have := h.serial_range c hc
      omega
    · have := k.serial_range c hc
      omega
  id_eq c hc := by
    rcases List.mem_append.mp hc with hc | hc
    · obtain ⟨n, hlow, hhigh, hid⟩ := h.id_eq c hc
      exact ⟨n, hlow, hhigh.trans hinst', hid⟩
    · obtain ⟨n, hlow, hhigh, hid⟩ := k.id_eq c hc
      exact ⟨n, hinst.trans_lt hlow, hhigh, hid⟩

/-- An id that the game has made. -/
def Spent (g : GameState) (id : String) : Prop :=
  ∃ cardId n, 1 ≤ n ∧ n ≤ g.instancesMade ∧ id = numbered cardId n

/-- An id that the game makes after the first state and until the second. -/
def MadeSince (g g' : GameState) (id : String) : Prop :=
  ∃ cardId n, g.instancesMade < n ∧ n ≤ g'.instancesMade ∧ id = numbered cardId n

/-- All ids on the table are made by the game, and no two of them are the same. -/
structure Wellmade (g : GameState) : Prop where
  /-- No id is there twice. -/
  nodup : g.zones.ids.Nodup
  /-- Every id is made by the game. -/
  spent : ∀ id ∈ g.zones.ids, g.Spent id

/-- No two ids on the table are the same, and none of them is one that the game is still to make. -/
structure Distinct (g : GameState) : Prop where
  /-- No id is there twice. -/
  nodup : g.zones.ids.Nodup
  /-- No id has a number that is not reached yet. -/
  unreached : ∀ cardId n, g.instancesMade < n → numbered cardId n ∉ g.zones.ids

/-- Cards on the table that count as the same card are one. -/
theorem Distinct.eq_of_same {g : GameState} (h : g.Distinct) {c d : Card} (hc : c ∈ g.zones.cards)
    (hd : d ∈ g.zones.cards) (hsame : d.same c = true) : d = c :=
  List.inj_on_of_nodup_map (Multiset.coe_nodup.mp h.nodup) hd hc (of_decide_eq_true hsame)

/-- A card on the table or one of the given ones. -/
def Around (outside : List Card) (g : GameState) (c : Card) : Prop :=
  c ∈ g.zones.cards ∨ c ∈ outside

/-- Serial numbers tell the cards around apart, and new ones will be told apart as well. -/
structure Coherent (outside : List Card) (g : GameState) : Prop where
  /-- No card is newer than the game knows. -/
  serial_le : ∀ c, Around outside g c → c.serial ≤ g.copiesMade
  /-- No two cards have one serial number. -/
  serial_inj : ∀ c d, Around outside g c → Around outside g d → c.serial = d.serial → c = d

/-- An id with a number that was not reached yet is not spent. -/
theorem not_spent_of_lt {g : GameState} {n : Nat} (h : g.instancesMade < n) (cardId : String) :
    ¬ g.Spent (numbered cardId n) := by
  rintro ⟨d, m, -, hm, hid⟩
  have := numbered_inj hid
  omega

/-- Ids that are made by the game are none that it is still to make. -/
theorem Wellmade.distinct {g : GameState} (h : g.Wellmade) : g.Distinct where
  nodup := h.nodup
  unreached cardId _ hn hid := not_spent_of_lt hn cardId (h.spent _ hid)

/-- What is made later on was not made before. -/
theorem MadeSince.not_spent {g g' : GameState} {id : String} (h : MadeSince g g' id) :
    ¬ g.Spent id := by
  obtain ⟨cardId, n, hlow, -, rfl⟩ := h
  exact not_spent_of_lt hlow cardId

/-- Fewer cards around are told apart as well. -/
theorem Coherent.mono {outside fewer : List Card} {g : GameState} (h : Coherent outside g)
    (hsub : ∀ c ∈ fewer, Around outside g c) : Coherent fewer g where
  serial_le c hc := h.serial_le c (hc.elim .inl (hsub c))
  serial_inj c d hc hd := h.serial_inj c d (hc.elim .inl (hsub c)) (hd.elim .inl (hsub d))

/-- A new copy is told apart from the cards around by its number. -/
theorem Coherent.addCopy {outside : List Card} {g : GameState} (h : Coherent outside g)
    (id cardId : String) (temporary : Bool) (owner : Option String) :
    Coherent ((g.addCopy id cardId temporary owner).1 :: outside)
      (g.addCopy id cardId temporary owner).2 := by
  -- Every card around is the new copy or was around before.
  have hcases : ∀ c, Around ((g.addCopy id cardId temporary owner).1 :: outside)
      (g.addCopy id cardId temporary owner).2 c →
        c = (g.addCopy id cardId temporary owner).1 ∨ Around outside g c := by
    rintro c (hc | hc)
    · exact .inr (.inl hc)
    · exact (List.mem_cons.mp hc).imp_right .inr
  have hnumber : (g.addCopy id cardId temporary owner).1.serial = g.copiesMade + 1 := rfl
  constructor
  · intro c hc
    rcases hcases c hc with rfl | hc
    · exact le_rfl
    · exact (h.serial_le c hc).trans (Nat.le_succ _)
  · intro c d hc hd hserial
    rcases hcases c hc with rfl | hc <;> rcases hcases d hd with rfl | hd
    · rfl
    · have := h.serial_le d hd
      omega
    · have := h.serial_le c hc
      omega
    · exact h.serial_inj c d hc hd hserial

/-- The card that a host means by an id is told apart from the others, be it one of them or new. -/
theorem Coherent.cardNamed {outside : List Card} {g : GameState} (h : Coherent outside g)
    (id : String) : Coherent ((g.cardNamed id).1 :: outside) (g.cardNamed id).2 := by
  unfold GameState.cardNamed
  dsimp only
  split
  · next c hc =>
    -- The card is on the table already, so naming it adds none outside.
    have hmem := List.mem_of_find?_eq_some hc
    refine h.mono fun d hd => ?_
    rcases List.mem_cons.mp hd with rfl | hd
    · refine .inl (Zones.mem_cards.mpr ?_)
      simp only [List.mem_append] at hmem
      tauto
    · exact .inr hd
  · exact h.addCopy ..

namespace Evolves

variable {outside : List Card} {g g' : GameState}

instance : IsPreorder GameState (Evolves outside) where
  refl g := ⟨le_rfl, le_rfl, [], .nil g g, by simp, fun _ h => .inl h⟩
  trans g g' g'' := by
    rintro ⟨hinst, hcopies, new, hnew, hids, hmem⟩ ⟨hinst', hcopies', more, hmore, hids', hmem'⟩
    -- A card of the last state came in with the second step or was in the middle state.
    refine ⟨hinst.trans hinst', hcopies.trans hcopies', new ++ more,
      hnew.append hmore hinst hinst' hcopies hcopies', ?_, fun c hc => ?_⟩
    · rw [Pile.ids_append, ← add_assoc]
      exact hids'.trans (add_le_add_left hids _)
    · rcases hmem' c hc with h | h | h
      · rcases hmem c h with h | h | h
        exacts [.inl h, .inr (.inl h), .inr (.inr (List.mem_append_left _ h))]
      · exact .inr (.inl h)
      · exact .inr (.inr (List.mem_append_right _ h))

/-- More cards may be let in. -/
theorem mono {more : List Card} (h : Evolves outside g g') (hsub : ∀ c ∈ outside, c ∈ more) :
    Evolves more g g' := by
  obtain ⟨hinst, hcopies, new, hnew, hids, hmem⟩ := h
  exact ⟨hinst, hcopies, new, hnew, hids, fun c hc => (hmem c hc).imp_right (.imp_left (hsub c))⟩

/-- Cards are moved and removed, and numbers are passed over at most. -/
theorem of_moves (h : Zones.Moves outside g.zones g'.zones)
    (hinst : g.instancesMade ≤ g'.instancesMade) (hcopies : g.copiesMade ≤ g'.copiesMade) :
    Evolves outside g g' :=
  ⟨hinst, hcopies, [], .nil g g', by simpa using h.ids_le,
    fun c hc => (h.mem c hc).imp_right .inl⟩

/-- Whatever else changes, the cards are where they were. -/
theorem of_zones_eq (h : g'.zones = g.zones) (hinst : g.instancesMade ≤ g'.instancesMade)
    (hcopies : g.copiesMade ≤ g'.copiesMade) : Evolves outside g g' :=
  of_moves (by rw [h]; exact Std.Refl.refl g.zones) hinst hcopies

/-- The card that a host means by an id does not come onto the table by that. -/
theorem cardNamed (id : String) (g : GameState) : Evolves outside g (g.cardNamed id).2 := by
  unfold GameState.cardNamed
  dsimp only
  split
  · exact Std.Refl.refl g
  · exact of_zones_eq rfl le_rfl (Nat.le_succ _)

/-- A new copy comes onto the table. -/
theorem of_newCard (cardId : String) (temporary : Bool) (owner : Option String) {z : Zones}
    (hids : z.ids ≤ (g.newCard cardId temporary owner).1.instanceId ::ₘ g.zones.ids)
    (hmem : ∀ c ∈ z.cards, c ∈ g.zones.cards ∨ c = (g.newCard cardId temporary owner).1) :
    Evolves outside g { (g.newCard cardId temporary owner).2 with zones := z } := by
  refine ⟨Nat.le_succ _, Nat.le_succ _, [(g.newCard cardId temporary owner).1],
    (Fresh.newCard g cardId temporary owner).mono le_rfl le_rfl, ?_, ?_⟩
  · rw [Pile.ids_cons, Pile.ids_nil, Multiset.add_cons, add_zero]
    exact hids
  · intro c hc
    exact (hmem c hc).imp_right fun h => .inr (List.mem_singleton.mpr h)

/-- What is spent stays spent. -/
theorem spent (h : Evolves outside g g') {id : String} (hid : g.Spent id) : g'.Spent id := by
  obtain ⟨cardId, n, hlow, hhigh, rfl⟩ := hid
  exact ⟨cardId, n, hlow, hhigh.trans h.instances, rfl⟩

/-- An id that turns up was made in between. -/
theorem madeSince_of_mem (h : Evolves outside g g') {id : String} (hid : id ∈ g'.zones.ids)
    (hnew : id ∉ g.zones.ids) : MadeSince g g' id := by
  obtain ⟨-, -, new, hfresh, hids, -⟩ := h
  rcases Multiset.mem_add.mp (Multiset.mem_of_le hids hid) with hid | hid
  · exact absurd hid hnew
  · obtain ⟨c, hc, rfl⟩ := Pile.mem_ids.mp hid
    obtain ⟨n, hlow, hhigh, hcn⟩ := hfresh.id_eq c hc
    exact ⟨c.cardId, n, hlow, hhigh, hcn⟩

/-- Ids that differ, from each other and from those still to be made, stay so. -/
theorem distinct (h : Evolves outside g g') (hg : g.Distinct) : g'.Distinct := by
  obtain ⟨hinst, -, new, hfresh, hids, -⟩ := h
  constructor
  · -- New ids have numbers that no id on the table has.
    refine Multiset.nodup_of_le hids (Multiset.nodup_add.mpr ⟨hg.nodup, ?_, ?_⟩)
    · exact Multiset.coe_nodup.mpr hfresh.ids
    · refine Multiset.disjoint_left.mpr fun hid hid' => ?_
      obtain ⟨c, hc, rfl⟩ := Pile.mem_ids.mp hid'
      obtain ⟨n, hlow, -, hcn⟩ := hfresh.id_eq c hc
      exact hg.unreached c.cardId n hlow (hcn ▸ hid)
  · intro cardId n hn hid
    rcases Multiset.mem_add.mp (Multiset.mem_of_le hids hid) with hid | hid
    · exact hg.unreached cardId n (hinst.trans_lt hn) hid
    · obtain ⟨c, hc, hcid⟩ := Pile.mem_ids.mp hid
      obtain ⟨k, -, hhigh, hck⟩ := hfresh.id_eq c hc
      have hsame : n = k := numbered_inj (hcid.symm.trans hck)
      omega

/-- Ids that are made by the game and differ stay so. -/
theorem wellmade (h : Evolves outside g g') (hg : g.Wellmade) : g'.Wellmade := by
  refine ⟨(h.distinct hg.distinct).nodup, fun id hid => ?_⟩
  have hspent : ∀ id, g.Spent id → g'.Spent id := fun _ => h.spent
  obtain ⟨hinst, -, new, hfresh, hids, -⟩ := h
  rcases Multiset.mem_add.mp (Multiset.mem_of_le hids hid) with hid | hid
  · exact hspent id (hg.spent id hid)
  · obtain ⟨c, hc, rfl⟩ := Pile.mem_ids.mp hid
    obtain ⟨n, hlow, hhigh, hcn⟩ := hfresh.id_eq c hc
    exact ⟨_, n, by omega, hhigh, hcn⟩

/-- Cards that are told apart by their serial numbers stay so. -/
theorem coherent (h : Evolves outside g g') (hg : Coherent outside g) : Coherent outside g' := by
  obtain ⟨-, hcopies, new, hfresh, -, hmem⟩ := h
  have hsplit : ∀ c, Around outside g' c → Around outside g c ∨ c ∈ new := by
    rintro c (hc | hc)
    · rcases hmem c hc with hc | hc | hc
      exacts [.inl (.inl hc), .inl (.inr hc), .inr hc]
    · exact .inl (.inr hc)
  -- A new copy has a greater number than every card that was around.
  have hapart : ∀ c d, Around outside g c → d ∈ new → c.serial < d.serial := fun c d hc hd =>
    (hg.serial_le c hc).trans_lt (hfresh.serial_range d hd).1
  constructor
  · intro c hc
    rcases hsplit c hc with hc | hc
    · exact (hg.serial_le c hc).trans hcopies
    · exact (hfresh.serial_range c hc).2
  · intro c d hc hd hserial
    rcases hsplit c hc with hc | hc <;> rcases hsplit d hd with hd | hd
    · exact hg.serial_inj c d hc hd hserial
    · exact absurd hserial (hapart c d hc hd).ne
    · exact absurd hserial (hapart d c hd hc).ne'
    · exact List.inj_on_of_nodup_map hfresh.serials hc hd hserial

end Evolves

end GameState

end Treasury
