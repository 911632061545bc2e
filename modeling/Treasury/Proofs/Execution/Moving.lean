import Treasury.Proofs.Execution.Reordering

/-!
# Effects that make no cards

Apart from four kinds, effects make no cards: they move and remove those on the table. Two of them
move their targets, which are put where the hand held cards that count as them; the others bring in
nothing at all.

* `Table.Sheds` relates two tables of which the second has only cards of the first, and
  `Table.Sheds.executeKind` says which effects do no more than that.
* `Table.Moves` lets the given cards come onto the table as well, and `Table.Moves.executeKind` says
  it of all effects that make no cards.
-/

namespace Treasury

/-- Whether effects of a kind may make cards, also in exchange for others. -/
def EffectKind.makesCards : EffectKind → Bool
  | .createTempTreasure | .addCardToDeck | .permanentUpgrade | .upgradeCardInDeck => true
  | _ => false

/-- Whether effects of a kind may bring cards onto the table: they make some, or they move their
targets, which may come from outside where ids are not unique. -/
def EffectKind.bringsIn (kind : EffectKind) : Bool :=
  kind.makesCards || kind = .moveToDeckBottom || kind = .settleCard

/-- Up to `n` cards that satisfy `p` are removed, and the others are left. -/
theorem Zones.removing_sublist (p : Card → Bool) (n : Nat) (z : Zones) :
    (removing p n z).2.cards.Sublist z.cards := by
  induction n generalizing z with
  | zero => exact List.Sublist.refl _
  | succ n ih =>
    unfold removing
    split
    · exact List.Sublist.refl _
    · exact (ih _).trans (update_without_sublist z _ _)

/-- The second table has cards of the first only, none of them more often, and no numbers were used
up. -/
structure Table.Sheds (t u : Table) : Prop where
  /-- The cards are some of those of before. -/
  cards : u.game.zones.cards.Subperm t.game.zones.cards
  /-- No id was made. -/
  instances : u.game.instancesMade = t.game.instancesMade
  /-- No copy was made. -/
  copies : u.game.copiesMade = t.game.copiesMade

namespace Table.Sheds

variable {r : Rules} {α : Type}

instance : IsPreorder Table Sheds where
  refl _ := ⟨List.Subperm.refl _, rfl, rfl⟩
  trans _ _ _ h k :=
    ⟨k.cards.trans h.cards, k.instances.trans h.instances, k.copies.trans h.copies⟩

/-- What leaves the cards on the table removes none. -/
theorem keeps_of_reorders {x : Play α} (h : Keeps Reorders x) : Keeps Sheds x :=
  h.mono fun _ _ hreorders => ⟨hreorders.perm.subperm, hreorders.instances, hreorders.copies⟩

theorem changeZones {f : Zones → Zones} (h : ∀ z, (f z).cards.Sublist z.cards) :
    Keeps Sheds (Play.changeZones f) := fun t => ⟨(h t.game.zones).subperm, rfl, rfl⟩

theorem killUnit (m : Member) : Keeps Sheds (Roster.killUnit r m) := by
  refine Play.keeps_serve (.bind (keeps_of_reorders Reorders.game) fun g => ?_)
  have hrest : ∀ u : Resident, Keeps Sheds (do
      Play.changeZones (·.withoutOwner u.unitId)
      Play.changeGame fun g => { g with residents := g.residents.erase u }) := fun u =>
    .bind (changeZones fun z => z.withoutOwner_sublist u.unitId) fun _ =>
      keeps_of_reorders (Reorders.changeAside fun _ => rfl)
  -- The unit leaves its house, if it has one, before its cards go.
  dsimp only
  split
  · exact .bind (.pure _) hrest
  · exact .bind (.map (keeps_of_reorders (Reorders.leaveHouse m)) _) hrest

theorem removeUnit (a : Assignment) : Keeps Sheds (a.removeUnit r) := by
  refine .bind (keeps_of_reorders (Reorders.pickUnit _)) fun picked => ?_
  split
  · exact .pure _
  · exact .bind (killUnit _) fun _ => .pure _

theorem destroy (c : Card) : Keeps Sheds (Deck.destroy r c) := by
  refine Play.keeps_serve (.bind (keeps_of_reorders Reorders.game) fun g => ?_)
  split
  · exact .bind (changeZones fun z => z.update_without_sublist _ c) fun _ => .pure _
  · exact .pure _

theorem destroyAll (cs : List Card) : Keeps Sheds (Assignment.destroyAll r cs) := by
  induction cs with
  | nil => exact .pure _
  | cons c rest ih => exact .bind (destroy c) fun _ => .bind ih fun _ => .pure _

theorem destroyCard (a : Assignment) : Keeps Sheds (a.destroyCard r) :=
  .bind (destroyAll _) fun _ => .pure _

theorem destroyPollution (a : Assignment) : Keeps Sheds (a.destroyPollution r) :=
  .bind (keeps_of_reorders Reorders.game) fun _ => .bind (destroyAll _) fun _ => .pure _

theorem removeCardFromDeck (a : Assignment) : Keeps Sheds (a.removeCardFromDeck r) :=
  .bind (fun t => ⟨(t.game.zones.removing_sublist _ _).subperm, rfl, rfl⟩) fun _ => .pure _

/-- Effects that bring in nothing leave some of the cards on the table. -/
theorem executeKind (a : Assignment) {kind : EffectKind} (h : kind.bringsIn = false) :
    Keeps Sheds (a.executeKind r kind) := by
  cases kind
  case createTempTreasure | addCardToDeck | permanentUpgrade | upgradeCardInDeck |
      moveToDeckBottom | settleCard => cases h
  case destroyCard => exact destroyCard a
  case destroyPollution => exact destroyPollution a
  case removeUnit => exact removeUnit a
  case removeCardFromDeck => exact removeCardFromDeck a
  -- All others leave all of them.
  all_goals exact keeps_of_reorders (Reorders.executeKind a rfl)

end Table.Sheds

/-- The second table has cards of the first and of the given ones only, no id is there more often
than before, and no numbers were used up. -/
structure Table.Moves (outside : List Card) (t u : Table) : Prop where
  /-- The piles come of those of before. -/
  zones : Zones.Moves outside t.game.zones u.game.zones
  /-- No id was made. -/
  instances : u.game.instancesMade = t.game.instancesMade
  /-- No copy was made. -/
  copies : u.game.copiesMade = t.game.copiesMade

namespace Table.Moves

variable {r : Rules} {outside : List Card} {α : Type}

instance : IsPreorder Table (Moves outside) where
  refl t := ⟨Std.Refl.refl (r := Zones.Moves outside) t.game.zones, rfl, rfl⟩
  trans _ _ _ h k := ⟨IsTrans.trans (r := Zones.Moves outside) _ _ _ h.zones k.zones,
    k.instances.trans h.instances, k.copies.trans h.copies⟩

theorem keeps_of_sheds {x : Play α} (h : Keeps Sheds x) : Keeps (Moves outside) x :=
  h.mono fun _ _ hsheds => ⟨.of_subperm hsheds.cards, hsheds.instances, hsheds.copies⟩

theorem moveToDeckBottom (a : Assignment) (ha : ∀ c ∈ a.targets, c ∈ outside) :
    Keeps (Moves outside) (a.moveToDeckBottom r) := by
  refine .bind (Play.keeps_serve fun t => ?_) fun _ => .pure _
  exact ⟨.toBottom a.targets ha t.game.zones, rfl, rfl⟩

/-- Settling lays treasures away. -/
theorem settled (boosts : Boosts) (cs : List Card) (hcs : ∀ c ∈ cs, c ∈ outside) (z : Zones) :
    Zones.Moves outside z (Deck.settled r boosts cs z).2 := by
  induction cs generalizing z with
  | nil => exact Std.Refl.refl z
  | cons c rest ih =>
    have hrest := ih fun d hd => hcs d (List.mem_cons_of_mem _ hd)
    unfold Deck.settled
    split
    · exact IsTrans.trans _ _ _ (.layAway (hcs c (List.mem_cons_self ..)) z) (hrest _)
    · exact hrest z

theorem settle (a : Assignment) (ha : ∀ c ∈ a.targets, c ∈ outside) :
    Keeps (Moves outside) (a.settle r) := by
  unfold Assignment.settle
  refine .ite (.pure _) (.bind (Play.keeps_serve fun t => ?_) fun total => ?_)
  · exact ⟨settled t.game.boosts a.targets ha t.game.zones, rfl, rfl⟩
  · have hgold := Reorders.keeps_of_aside (Aside.gainOfSettled (r := r) a total)
    exact keeps_of_sheds (Sheds.keeps_of_reorders hgold)

/-- Effects that make no cards let none but their targets come onto the table. -/
theorem executeKind (a : Assignment) (ha : ∀ c ∈ a.targets, c ∈ outside) {kind : EffectKind}
    (h : kind.makesCards = false) : Keeps (Moves outside) (a.executeKind r kind) := by
  cases kind
  case createTempTreasure | addCardToDeck | permanentUpgrade | upgradeCardInDeck => cases h
  case moveToDeckBottom => exact moveToDeckBottom a ha
  case settleCard => exact settle a ha
  -- All others move nothing in.
  all_goals exact keeps_of_sheds (Sheds.executeKind a rfl)

end Table.Moves

end Treasury
