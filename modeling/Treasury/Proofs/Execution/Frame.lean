import Treasury.Proofs.Execution.Aside

/-!
# What effects leave alone

Six kinds of effect act on cards that are picked. For each of them the cards that are not among the
targets keep their places and their boosts.

* `Table.Spares keep t u`: from one table to the other, the cards that `keep` holds of lie in the
  same piles in the same order and have the same boosts.
* `Card.Avoids keep`: a card cannot be taken for one that is to be kept.
* `Assignment.execute_spares`: an effect of the six kinds spares what its targets avoid, unless it
  is a destruction of pollution without targets.
* `destroyPollution_takes`: without targets, such a destruction takes a card if there is one.
-/

namespace Treasury

/-- An effect on cards that are picked among hand cards. -/
def EffectKind.isSelective : EffectKind → Bool
  | .boostTreasure | .permanentUpgrade | .settleCard | .destroyCard | .destroyPollution
  | .moveToDeckBottom => true
  | _ => false

/-- The cards that `keep` holds of lie in the same piles, in the same order. -/
def Zones.Spares (keep : Card → Bool) (z z' : Zones) : Prop :=
  ∀ zone, (z'.pile zone).filter keep = (z.pile zone).filter keep

/-- The cards that `keep` holds of lie in the same piles, in the same order, and have the same
boosts. -/
structure Table.Spares (keep : Card → Bool) (t u : Table) : Prop where
  /-- They lie in the same piles, in the same order. -/
  zones : t.game.zones.Spares keep u.game.zones
  /-- They have the same boosts. -/
  boosts : ∀ c, keep c = true → u.game.boosts.grade? c = t.game.boosts.grade? c

/-- No card to be kept counts as the given one or is the same physical copy. -/
def Card.Avoids (keep : Card → Bool) (c : Card) : Prop :=
  ∀ d, keep d = true → d.same c = false ∧ d.serial ≠ c.serial

variable {keep : Card → Bool} {r : Rules}

instance : IsPreorder Zones (Zones.Spares keep) where
  refl _ _ := rfl
  trans _ _ _ h k zone := (k zone).trans (h zone)

instance : IsPreorder Table (Table.Spares keep) where
  refl _ := ⟨Std.Refl.refl (r := Zones.Spares keep) _, fun _ _ => rfl⟩
  trans _ _ _ h k :=
    ⟨IsTrans.trans _ _ _ h.zones k.zones, fun c hc => (k.boosts c hc).trans (h.boosts c hc)⟩

theorem Card.Avoids.keep_eq_of_same {c d : Card} (h : c.Avoids keep) (hd : d.same c = true) :
    keep d = false := by
  refine Bool.eq_false_iff.mpr fun hkeep => ?_
  rw [(h d hkeep).1] at hd
  cases hd

theorem Card.Avoids.keep_eq {c : Card} (h : c.Avoids keep) : keep c = false :=
  h.keep_eq_of_same (decide_eq_true rfl)

namespace Zones.Spares

variable {c : Card}

/-- Taking away a card that is avoided leaves the others in order. -/
theorem filter_without (h : c.Avoids keep) (p : Pile) :
    (p.without c).filter keep = p.filter keep := by
  induction p with
  | nil => rfl
  | cons d rest ih =>
    unfold Pile.without at ih ⊢
    rw [List.eraseP_cons]
    cases hd : d.same c with
    | true =>
      -- This is the card that goes, and `keep` passes it over.
      have hdrop : keep d = false := h.keep_eq_of_same hd
      rw [cond_true, List.filter_cons_of_neg (by simp [hdrop])]
    | false => rw [cond_false, List.filter_cons, List.filter_cons, ih]

/-- Putting a card that is avoided onto a pile leaves the others in order. -/
theorem filter_append (h : c.Avoids keep) (p : Pile) :
    List.filter keep (p ++ [c]) = p.filter keep := by
  rw [List.filter_append, List.filter_cons_of_neg (by simp [h.keep_eq]), List.filter_nil,
    List.append_nil]

theorem update_without (h : c.Avoids keep) (z : Zones) (zone : Zone) :
    z.Spares keep (z.update zone (·.without c)) := by
  intro other
  by_cases hzone : other = zone
  · rw [hzone, pile_update_self, filter_without h]
  · rw [pile_update_of_ne z hzone]

theorem layAway (h : c.Avoids keep) (z : Zones) : z.Spares keep (z.layAway c) := by
  unfold Zones.layAway
  split
  · intro zone
    cases zone with
    | deck => rfl
    | hand => exact filter_without h z.hand
    | discard => exact filter_append h z.discard
    | play => rfl
  · exact Std.Refl.refl z

theorem toBottom {cs : List Card} (h : ∀ c ∈ cs, c.Avoids keep) (z : Zones) :
    z.Spares keep (z.toBottom cs).2 := by
  induction cs generalizing z with
  | nil => exact Std.Refl.refl z
  | cons c rest ih =>
    have hfirst : c.Avoids keep := h c (List.mem_cons_self ..)
    have hrest := ih fun d hd => h d (List.mem_cons_of_mem _ hd)
    unfold Zones.toBottom
    split
    · -- The card leaves the hand and comes under the deck, and is none of those looked at.
      refine IsTrans.trans _ _ _ (fun zone => ?_) (hrest _)
      cases zone with
      | deck => exact filter_append hfirst z.deck
      | hand => exact filter_without hfirst z.hand
      | discard => rfl
      | play => rfl
    · exact hrest z

theorem settled {cs : List Card} (h : ∀ c ∈ cs, c.Avoids keep) (boosts : Boosts) (z : Zones) :
    z.Spares keep (Deck.settled r boosts cs z).2 := by
  induction cs generalizing z with
  | nil => exact Std.Refl.refl z
  | cons c rest ih =>
    have hrest := ih fun d hd => h d (List.mem_cons_of_mem _ hd)
    unfold Deck.settled
    split
    · exact IsTrans.trans _ _ _ (layAway (h c (List.mem_cons_self ..)) z) (hrest _)
    · exact hrest z

/-- Exchanging a card that is avoided for another such leaves the others in order. -/
theorem filter_exchanged (h : c.Avoids keep) {new : Card} (hnew : keep new = false) (p : Pile) :
    (p.exchanged c new).filter keep = p.filter keep := by
  induction p with
  | nil => rfl
  | cons d rest ih =>
    unfold Pile.exchanged at ih ⊢
    rw [List.findIdx_cons]
    cases hd : d.same c with
    | true =>
      -- Neither the card that goes nor the one in its place is kept.
      have hdrop : keep d = false := h.keep_eq_of_same hd
      rw [cond_true, List.set_cons_zero, List.filter_cons_of_neg (by simp [hnew]),
        List.filter_cons_of_neg (by simp [hdrop])]
    | false => rw [cond_false, List.set_cons_succ, List.filter_cons, List.filter_cons, ih]

end Zones.Spares

/-- Boosting some copies is nothing to the others. -/
theorem Assignment.grade?_boosted_of_ne (steps : Nat) {cs : List Card} {c : Card}
    (h : ∀ d ∈ cs, d.serial ≠ c.serial) (b : Boosts) :
    (Assignment.boosted r steps cs b).2.grade? c = b.grade? c := by
  induction cs generalizing b with
  | nil => rfl
  | cons d rest ih =>
    obtain ⟨hfirst, hrest⟩ := List.forall_mem_cons.mp h
    unfold Assignment.boosted
    split
    · exact ih hrest b
    · exact (ih hrest _).trans (Boosts.grade?_boost_of_ne hfirst.symm b _)

/-! ## The six effects -/

namespace Table.Spares

variable {n : Nat}

theorem changeZones {f : Zones → Zones} (h : ∀ z, Zones.Spares keep z (f z)) :
    Keeps (Table.Spares keep) (Play.changeZones f) := fun t => ⟨h t.game.zones, fun _ _ => rfl⟩

theorem destroy {c : Card} (h : c.Avoids keep) : Keeps (Table.Spares keep) (Deck.destroy r c) := by
  refine Play.keeps_serve (.bind (.of_fixed fun _ => rfl) fun g => ?_)
  split
  · next zone _ =>
    exact .bind (changeZones fun z => .update_without h z zone) fun _ => .pure _
  · exact .pure _

theorem destroyAll {cs : List Card} (h : ∀ c ∈ cs, c.Avoids keep) :
    Keeps (Table.Spares keep) (Assignment.destroyAll r cs) := by
  induction cs with
  | nil => exact .pure _
  | cons c rest ih =>
    exact .bind (destroy (h c (List.mem_cons_self ..))) fun _ =>
      .bind (ih fun d hd => h d (List.mem_cons_of_mem _ hd)) fun _ => .pure _

/-- Gold is no card. -/
theorem keeps_of_aside {α : Type} {x : Play α} (h : Keeps Table.Aside x) :
    Keeps (Table.Spares keep) x :=
  h.mono fun t u haside => by
    refine ⟨?_, fun _ _ => by rw [haside.boosts]⟩
    rw [haside.zones]
    exact Std.Refl.refl (r := Zones.Spares keep) t.game.zones

variable {a : Assignment} (h : ∀ c ∈ a.targets, c.Avoids keep)

include h

theorem settle : Keeps (Table.Spares keep) (a.settle r) := by
  unfold Assignment.settle
  refine .ite (.pure _) (.bind (Play.keeps_serve fun t => ?_) fun total => ?_)
  · exact ⟨.settled h t.game.boosts t.game.zones, fun _ _ => rfl⟩
  · exact keeps_of_aside (Table.Aside.gainOfSettled a total)

theorem moveToDeckBottom : Keeps (Table.Spares keep) (a.moveToDeckBottom r) :=
  .bind (Play.keeps_serve fun t => ⟨.toBottom h t.game.zones, fun _ _ => rfl⟩) fun _ => .pure _

theorem boostTreasure : Keeps (Table.Spares keep) (a.boostTreasure r) :=
  .bind (fun t => ⟨Std.Refl.refl (r := Zones.Spares keep) t.game.zones, fun d hd =>
    Assignment.grade?_boosted_of_ne _ (fun c hc => (h c hc d hd).2.symm) _⟩) fun _ => .pure _

omit h in
/-- Upgrades bring in copies that are newer than all cards to be kept. -/
theorem upgraded {cs : List Card} (hcs : ∀ c ∈ cs, c.Avoids keep)
    (hold : ∀ c, keep c = true → c.serial ≤ n) {g : GameState} (hn : n ≤ g.copiesMade) :
    g.zones.Spares keep (Assignment.upgraded r cs g).2.zones ∧
      (Assignment.upgraded r cs g).2.boosts = g.boosts := by
  induction cs generalizing g with
  | nil => exact ⟨Std.Refl.refl g.zones, rfl⟩
  | cons c rest ih =>
    have hfirst : c.Avoids keep := hcs c (List.mem_cons_self ..)
    have hrest := fun {g : GameState} => ih (fun e he => hcs e (List.mem_cons_of_mem _ he)) (g := g)
    unfold Assignment.upgraded
    split
    · exact hrest hn
    · next grade _ =>
      split
      · have hnew : keep (g.newCard grade.cardId false c.owner).1 = false := by
          -- The new copy has a greater number than every card that is kept.
          refine Bool.eq_false_iff.mpr fun hkeep => ?_
          have hserial := hold _ hkeep
          have : (g.newCard grade.cardId false c.owner).1.serial = g.copiesMade + 1 := rfl
          omega
        have hexchange : g.zones.Spares keep
            { g.zones with
              hand := g.zones.hand.exchanged c (g.newCard grade.cardId false c.owner).1 } := by
          intro zone
          cases zone with
          | hand => exact Zones.Spares.filter_exchanged hfirst hnew g.zones.hand
          | _ => rfl
        obtain ⟨hzones, hboosts⟩ := hrest (g := { (g.newCard grade.cardId false c.owner).2 with
          zones := { g.zones with
            hand := g.zones.hand.exchanged c (g.newCard grade.cardId false c.owner).1 } })
          (Nat.le_succ_of_le hn)
        exact ⟨IsTrans.trans _ _ _ hexchange hzones, hboosts⟩
      · exact hrest hn

theorem upgradeTreasure {t : Table} (hold : ∀ c, keep c = true → c.serial ≤ t.game.copiesMade) :
    Table.Spares keep t (exec (a.upgradeTreasure r) t).2 := by
  obtain ⟨hzones, hboosts⟩ := upgraded (r := r) h hold (g := t.game) (Nat.le_refl _)
  have hmade : Table.Spares keep t
      (exec (Play.makeFromGame (Assignment.upgraded r a.targets)) t).2 :=
    ⟨hzones, fun c _ => congrArg (Boosts.grade? · c) hboosts⟩
  exact Keeps.bind_from hmade fun _ => .pure _

/-- A destruction of pollution that has targets destroys those. -/
theorem destroyPollution (hne : a.targets ≠ []) :
    Keeps (Table.Spares keep) (a.destroyPollution r) := by
  refine .bind (.of_fixed fun _ => rfl) fun g => ?_
  dsimp only
  rw [if_neg (by simpa using hne)]
  exact .bind (destroyAll h) fun _ => .pure _

end Table.Spares

/-- An effect of the six kinds spares what its targets avoid, unless it is a destruction of
pollution without targets. -/
theorem Assignment.execute_spares {a : Assignment} {kind : EffectKind}
    (hkind : a.effect.kind = .known kind) (hselective : kind.isSelective = true)
    (hasked : kind = .destroyPollution → a.targets ≠ []) (h : ∀ c ∈ a.targets, c.Avoids keep)
    {t : Table} (hold : ∀ c, keep c = true → c.serial ≤ t.game.copiesMade) :
    t.Spares keep (exec (a.execute r) t).2 := by
  unfold execute
  rw [hkind]
  dsimp only
  cases kind
  case boostTreasure => exact Table.Spares.boostTreasure h t
  case permanentUpgrade => exact Table.Spares.upgradeTreasure h hold
  case settleCard => exact Table.Spares.settle h t
  case destroyCard => exact Keeps.bind (Table.Spares.destroyAll h) (fun _ => .pure _) t
  case destroyPollution => exact Table.Spares.destroyPollution h (hasked rfl) t
  case moveToDeckBottom => exact Table.Spares.moveToDeckBottom h t
  all_goals cases hselective

/-! ## Destruction without targets -/

/-- Piles lose cards at most. -/
def Table.Shrinks (t u : Table) : Prop :=
  ∀ zone, (u.game.zones.pile zone).Sublist (t.game.zones.pile zone)

instance : IsPreorder Table Table.Shrinks where
  refl _ _ := .refl _
  trans _ _ _ h k zone := (k zone).trans (h zone)

namespace Table.Shrinks

theorem update_without (c : Card) (zone : Zone) :
    Keeps Table.Shrinks (Play.changeZones (·.update zone (·.without c))) := by
  intro t other
  rw [Play.exec_changeZones]
  by_cases hzone : other = zone
  · rw [hzone, Zones.pile_update_self]
    exact List.eraseP_sublist
  · have hpile := Zones.pile_update_of_ne t.game.zones hzone (·.without c)
    exact hpile ▸ List.Sublist.refl _

theorem destroyAll (cs : List Card) : Keeps Table.Shrinks (Assignment.destroyAll r cs) := by
  induction cs with
  | nil => exact .pure _
  | cons c rest ih =>
    refine .bind (Play.keeps_serve (.bind (.of_fixed fun _ => rfl) fun g => ?_)) fun _ =>
      .bind ih fun _ => .pure _
    split
    · exact .bind (update_without c _) fun _ => .pure _
    · exact .pure _

end Table.Shrinks

/-- A card in hand is taken away, or one that counts as it. -/
theorem destroy_takes {c : Card} {t : Table} (hserved : Service.destroy ∉ r.outOfOrder)
    (hc : c ∈ t.game.zones.hand) :
    ∃ zone, ((exec (Deck.destroy r c) t).2.game.zones.pile zone).length <
      (t.game.zones.pile zone).length := by
  unfold Deck.destroy
  rw [Play.exec_serve, if_neg hserved, Play.exec_game_bind]
  rcases hzone : t.game.zones.zoneOf? c with _ | zone
  · -- The hand holds the card, so it is somewhere.
    have hnone := List.find?_eq_none.mp hzone .hand (by decide)
    exact absurd (List.any_eq_true.mpr ⟨c, hc, decide_eq_true rfl⟩) hnone
  · have hholds := List.find?_some hzone
    have hlength := Pile.length_without hholds
    refine ⟨zone, ?_⟩
    rw [exec_bind, Play.exec_changeZones]
    simp only [exec_pure, Zones.pile_update_self]
    omega

/-- Without targets, a destruction of pollution takes a card if there is pollution in hand. -/
theorem destroyPollution_takes {a : Assignment} (hnone : a.targets = []) {t : Table}
    (hserved : Service.destroy ∉ r.outOfOrder)
    (hpollution : ∃ c ∈ t.game.zones.hand, r.kindOf c = some .pollution) :
    ∃ zone, ((exec (a.destroyPollution r) t).2.game.zones.pile zone).length <
      (t.game.zones.pile zone).length := by
  have hchosen : ∀ k : Int, ∃ c rest, c ∈ t.game.zones.hand ∧
      (if k > 0 then (t.game.zones.hand.filter fun c => r.kindOf c = some .pollution).take k.toNat
        else t.game.zones.hand.filter fun c => r.kindOf c = some .pollution) = c :: rest := by
    obtain ⟨d, hd, hkind⟩ := hpollution
    have hmem : d ∈ t.game.zones.hand.filter fun c => r.kindOf c = some .pollution :=
      List.mem_filter.mpr ⟨hd, decide_eq_true hkind⟩
    obtain ⟨c, rest, hcons⟩ := List.exists_cons_of_ne_nil (List.ne_nil_of_mem hmem)
    have hc : c ∈ t.game.zones.hand :=
      (List.mem_filter.mp (hcons ▸ List.mem_cons_self : c ∈ List.filter _ _)).1
    intro k
    rw [hcons]
    split
    · next hpos =>
      -- A positive limit leaves the first card of the list.
      obtain ⟨n, hn⟩ : ∃ n, k.toNat = n + 1 := ⟨k.toNat - 1, by omega⟩
      exact ⟨c, rest.take n, hc, by rw [hn, List.take_succ_cons]⟩
    · exact ⟨c, rest, hc, rfl⟩
  unfold Assignment.destroyPollution
  rw [Play.exec_game_bind]
  dsimp only
  rw [if_pos (by rw [hnone]; rfl)]
  obtain ⟨c, rest, hc, hcons⟩ := hchosen a.magnitude
  rw [hcons]
  -- The first of them goes, and the others bring nothing back.
  obtain ⟨zone, hlt⟩ := destroy_takes hserved hc
  refine ⟨zone, Nat.lt_of_le_of_lt (List.Sublist.length_le ?_) hlt⟩
  rw [Assignment.destroyAll, bind_assoc]
  refine Keeps.of_first (R := Table.Shrinks) _ (fun _ => ?_) t zone
  exact .bind (.bind (.destroyAll rest) fun _ => .pure _) fun _ => .pure _

/-- Without targets, a destruction of pollution does nothing if there is none or if the service that
destroys cards is out of order. -/
theorem destroyPollution_idle {a : Assignment} (hnone : a.targets = []) {t : Table}
    (h : Service.destroy ∈ r.outOfOrder ∨ ∀ c ∈ t.game.zones.hand, r.kindOf c ≠ some .pollution) :
    (exec (a.destroyPollution r) t).2 = t := by
  -- Whatever is chosen, destroying it leaves the table.
  have hall : ∀ cs : List Card, Service.destroy ∈ r.outOfOrder ∨ cs = [] →
      (exec (Assignment.destroyAll r cs) t).2 = t := by
    rintro (_ | ⟨c, rest⟩) h
    · rfl
    · have hout := h.resolve_right (List.cons_ne_nil c rest)
      rw [Assignment.destroyAll, exec_bind, Deck.destroy, Play.exec_serve, if_pos hout]
  unfold Assignment.destroyPollution
  rw [Play.exec_game_bind]
  dsimp only
  rw [if_pos (by rw [hnone]; rfl)]
  have hdone := hall (if a.magnitude > 0
      then (t.game.zones.hand.filter fun c => r.kindOf c = some .pollution).take a.magnitude.toNat
      else t.game.zones.hand.filter fun c => r.kindOf c = some .pollution) <|
    h.imp_right fun hclean => by
      have hempty : (t.game.zones.hand.filter fun c => r.kindOf c = some .pollution) = [] :=
        List.filter_eq_nil_iff.mpr fun c hc => by simpa using hclean c hc
      rw [hempty, List.take_nil, ite_self]
  rw [exec_bind]
  revert hdone
  rcases exec (Assignment.destroyAll r _) t with ⟨_ | _, u⟩
  · exact id
  · exact id

end Treasury
