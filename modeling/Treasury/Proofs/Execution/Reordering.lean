import Treasury.Proofs.Execution.Aside
import Treasury.Proofs.Random.Shuffle

/-!
# Effects that leave the cards on the table

Most effects do nothing to the cards on the table, or deal them out anew at most. The footprints of
those on gold, the turn and the household, apart from deaths, say that they leave the piles alone;
drawing, shuffling and revealing are gone through here. What the cards and their numbers are for, be
it their identity or how many of them there are, follows from `Table.Reorders`.
`EffectKind.changesCards` tells these effects from the others, and `Table.Reorders.executeKind` is
what they have in common.
-/

namespace Treasury

/-- The second table has the cards of the first, in another order and in other piles at most, and no
numbers were used up. -/
structure Table.Reorders (t u : Table) : Prop where
  /-- The cards are the same. -/
  perm : u.game.zones.cards.Perm t.game.zones.cards
  /-- No id was made. -/
  instances : u.game.instancesMade = t.game.instancesMade
  /-- No copy was made. -/
  copies : u.game.copiesMade = t.game.copiesMade

/-- Whether effects of a kind may do more to the cards on the table than deal them out anew: make
some, destroy some, or put some in the place of others. -/
def EffectKind.changesCards : EffectKind → Bool
  | .createTempTreasure | .addCardToDeck | .permanentUpgrade | .upgradeCardInDeck
  | .moveToDeckBottom | .settleCard | .destroyCard | .destroyPollution | .removeUnit
  | .removeCardFromDeck => true
  | _ => false

namespace Table.Reorders

variable {r : Rules} {α : Type}

instance : IsPreorder Table Reorders where
  refl _ := ⟨.refl _, rfl, rfl⟩
  trans _ _ _ h k :=
    ⟨k.perm.trans h.perm, k.instances.trans h.instances, k.copies.trans h.copies⟩

/-- Nothing happens to the cards and their numbers. -/
theorem of_inventory_eq {t u : Table} (h : u.game.inventory = t.game.inventory) : Reorders t u := by
  obtain ⟨hzones, hinst, hcopies⟩ : u.game.zones = t.game.zones ∧
      u.game.instancesMade = t.game.instancesMade ∧ u.game.copiesMade = t.game.copiesMade := by
    simpa only [GameState.inventory, Prod.mk.injEq] using h
  exact ⟨by rw [hzones], hinst, hcopies⟩

/-- What has to do with gold and the turn only does nothing to the cards. -/
theorem keeps_of_aside {x : Play α} (h : Keeps Aside x) : Keeps Reorders x :=
  h.mono fun _ _ haside => of_inventory_eq haside.inventory

/-- Nothing happens to the cards where neither the piles nor the numbers may differ. -/
theorem keeps_of_differsIn {ps : List Part} {x : Play α} (h : Keeps (DiffersIn ps) x)
    (hpiles : .piles ∉ ps) (hplay : .playArea ∉ ps) (hnumbers : .cardNumbers ∉ ps) :
    Keeps Reorders x := h.mono fun t u hdiffers => by
  have hcounters := hdiffers.same hnumbers
  simp only [Part.Same, Prod.mk.injEq] at hcounters
  refine of_inventory_eq ?_
  rw [GameState.inventory, hdiffers.zones_eq hpiles hplay, hcounters.1, hcounters.2]
  rfl

theorem game : Keeps Reorders Play.game := Keeps.of_fixed fun _ => rfl

/-- A change beside the cards and their numbers. -/
theorem changeAside {f : GameState → GameState} (h : ∀ g, (f g).inventory = g.inventory) :
    Keeps Reorders (Play.changeGame f) := fun t => of_inventory_eq (h t.game)

/-- The piles are dealt out anew. -/
theorem changeZones {f : Zones → Zones} (h : ∀ z, (f z).cards.Perm z.cards) :
    Keeps Reorders (Play.changeZones f) := fun t => ⟨h t.game.zones, rfl, rfl⟩

theorem leaveHouse (m : Member) : Keeps Reorders (Roster.removeUnit r m) := by
  have hunits := DiffersIn.leaveHouse (r := r) (List.mem_singleton_self Part.units) m
  exact keeps_of_differsIn hunits (by decide) (by decide) (by decide)

theorem pickUnit (p : Resident → Bool) : Keeps Reorders (Assignment.pickUnit p) :=
  .bind game fun _ => keeps_of_aside (Aside.keeps_of_rolled (Rolled.throwDice _))

/-! ## Drawing and shuffling -/

theorem shuffle : Keeps Reorders (Deck.shuffle r) := by
  refine Play.keeps_serve fun t => ⟨?_, rfl, rfl⟩
  have hdeck := Random.Dice.shuffle_perm t.game.zones.deck t.dice
  exact ((hdeck.append_right _).append_right _).append_right _

theorem refill : Keeps Reorders (Deck.refill r) := by
  refine .bind game fun g => .ite (.pure _) (.bind (changeZones fun z => ?_) fun _ => shuffle)
  -- In the list of all cards the discard pile and the hand change places.
  simp only [Zones.cards, List.append_nil, List.append_assoc]
  refine List.Perm.append_left _ ?_
  rw [← List.append_assoc, ← List.append_assoc]
  exact List.perm_append_comm.append_right _

theorem take (n : Nat) : Keeps Reorders (Deck.take r n) := by
  induction n with
  | zero => exact .pure _
  | succ n ih =>
    -- An empty deck is refilled first, and may stay empty.
    refine .bind game fun g => ?_
    extract_lets top
    have htop (u) : Keeps Reorders (top u) := by
      -- Which cards are left in the deck is known at one state only.
      intro t
      rw [Play.exec_game_bind]
      rcases hdeck : t.game.zones.deck with _ | ⟨c, rest⟩
      · exact Std.Refl.refl (r := Reorders) t
      · refine Keeps.bind_from ?_ fun _ => .bind ih fun _ => .pure _
        refine ⟨?_, rfl, rfl⟩
        simp only [Play.exec_changeZones, Zones.cards, hdeck, List.append_assoc, List.cons_append,
          List.nil_append]
        rw [← List.append_assoc, ← List.append_assoc rest]
        exact List.perm_middle
    split
    · exact .bind refill htop
    · exact htop ()

theorem draw (count : Int) : Keeps Reorders (Deck.draw r count) :=
  Play.keeps_serve (.bind game fun _ => .ite (.pure _) (take _))

theorem drawCard (a : Assignment) : Keeps Reorders (a.drawCard r) :=
  .bind (draw _) fun _ => .pure _

theorem drawUntil (a : Assignment) : Keeps Reorders (a.drawUntil r) :=
  .bind game fun _ => .ite (.pure _) (.bind (draw _) fun _ => .pure _)

theorem shuffleDeck (a : Assignment) : Keeps Reorders (a.shuffleDeck r) :=
  .bind shuffle fun _ => .pure _

/-- Dealing puts the revealed cards onto the table. -/
theorem dealt_perm (cs : List Card) (z : Zones) :
    (Zones.dealt r cs z).2.cards.Perm (cs ++ z.cards) := by
  induction cs generalizing z with
  | nil => exact .refl _
  | cons c rest ih =>
    unfold Zones.dealt
    -- The card comes to lie behind the hand or behind the discard pile.
    split
    · have h : (rest ++ z.deck ++ z.hand ++ c :: (z.discard ++ z.play)).Perm
          (c :: (rest ++ z.deck ++ z.hand ++ (z.discard ++ z.play))) := List.perm_middle
      refine (ih _).trans ?_
      simpa only [Zones.cards, List.append_assoc, List.cons_append, List.nil_append] using h
    · have h : (rest ++ z.deck ++ z.hand ++ z.discard ++ c :: z.play).Perm
          (c :: (rest ++ z.deck ++ z.hand ++ z.discard ++ z.play)) := List.perm_middle
      refine (ih _).trans ?_
      simpa only [Zones.cards, List.append_assoc, List.cons_append, List.nil_append] using h

theorem revealAndGain (a : Assignment) : Keeps Reorders (a.revealAndGain r) := by
  intro t
  unfold Assignment.revealAndGain Deck.revealTop
  rw [exec_bind, Play.exec_serve]
  by_cases hout : Service.revealTop ∈ r.outOfOrder
  · rw [if_pos hout]
    exact Std.Refl.refl (r := Reorders) t
  -- The revealed cards are nowhere until they are dealt, so the two steps are one.
  rw [if_neg hout, Play.exec_makeFromGame]
  dsimp only
  have hdeck := t.game.zones.deck.firstCards_append_afterCards (a.magnitudeOr 3)
  generalize t.game.zones.deck.firstCards (a.magnitudeOr 3) = revealed at hdeck ⊢
  generalize t.game.zones.deck.afterCards (a.magnitudeOr 3) = left at hdeck ⊢
  rcases revealed with _ | ⟨c, rest⟩
  · obtain rfl : left = t.game.zones.deck := hdeck
    exact Std.Refl.refl (r := Reorders) t
  · refine ⟨(dealt_perm _ _).trans (.of_eq ?_), rfl, rfl⟩
    simp only [Zones.cards, ← hdeck, List.append_assoc]

/-- All effects that do not change the cards leave them on the table. -/
theorem executeKind (a : Assignment) {kind : EffectKind} (h : kind.changesCards = false) :
    Keeps Reorders (a.executeKind r kind) := by
  cases kind
  case createTempTreasure | addCardToDeck | permanentUpgrade | upgradeCardInDeck |
      moveToDeckBottom | settleCard | destroyCard | destroyPollution | removeUnit |
      removeCardFromDeck => cases h
  case drawCard => exact drawCard a
  case shuffleDeck => exact shuffleDeck a
  case revealAndGain => exact revealAndGain a
  case drawUntil => exact drawUntil a
  -- The footprints of the others are beside the cards.
  all_goals
    exact keeps_of_differsIn (DiffersIn.executeKind a r _) (by decide) (by decide) (by decide)

end Table.Reorders

end Treasury
