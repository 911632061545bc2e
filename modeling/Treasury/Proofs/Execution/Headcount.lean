import Treasury.Proofs.Execution.Reordering

/-!
# How many cards effects leave

The number of cards on the table, and how the effects change it. Only six kinds of effects do: two
make cards, three destroy some, and when a unit dies its cards go with it. Each of these says in its
result how many cards it made or destroyed, apart from the death of a unit, which leaves as many
cards fewer as the unit owned.

* `EffectResult.gain` is what a result says about the number of cards.
* `Assignment.headcount_execute`: the number of cards changes as the result says, and by the cards
  of a unit that died.
-/

namespace Treasury

/-- The number of cards on the table. -/
def Table.headcount (t : Table) : Nat := t.game.zones.cards.length

/-- Whether the results of a kind of effect count cards that were made, cards that are gone, or
neither. -/
def EffectKind.sign : EffectKind → Int
  | .createTempTreasure | .addCardToDeck => 1
  | .destroyCard | .destroyPollution | .removeCardFromDeck => -1
  | _ => 0

/-- How many cards more there are by what a result says. -/
def EffectResult.gain (result : EffectResult) : Int :=
  match result.kind with
  | .known kind => kind.sign * result.count
  | .other .. => 0

/-- The units that are gone. -/
def Table.deceased (before after : Table) : List Resident :=
  before.game.residents.diff after.game.residents

/-- How many cards there were of units that are gone. -/
def Table.buried (before after : Table) : Nat :=
  before.game.zones.cards.countP fun c =>
    (before.deceased after).any fun u => c.owner = some u.unitId

/-! ## Piles and zones -/

namespace Zones

/-- A changed pile counts as many cards as it has then for those that it had. -/
theorem length_cards_update (z : Zones) (zone : Zone) (f : Pile → Pile) :
    (z.update zone f).cards.length + (z.pile zone).length =
      z.cards.length + (f (z.pile zone)).length := by
  have h := congrArg Multiset.card (ids_update z zone f)
  simpa [ids, Pile.ids] using h

/-- A card put onto one zone is one card more. -/
theorem length_cards_update_append (z : Zones) (zone : Zone) (c : Card) :
    (z.update zone (· ++ [c])).cards.length = z.cards.length + 1 := by
  have h := length_cards_update z zone (· ++ [c])
  rw [List.length_append, List.length_singleton] at h
  omega

/-- A card taken away from a zone that holds it is one card fewer. -/
theorem length_cards_update_without {z : Zones} {zone : Zone} {c : Card}
    (h : (z.pile zone).holds c) :
    (z.update zone (·.without c)).cards.length + 1 = z.cards.length := by
  -- Only the one pile changes, and it loses one card.
  have hupdate := length_cards_update z zone (·.without c)
  have hpile := Pile.length_without h
  omega

theorem length_cards_update_exchanged (z : Zones) (zone : Zone) (c new : Card) :
    (z.update zone (·.exchanged c new)).cards.length = z.cards.length := by
  have h := length_cards_update z zone (·.exchanged c new)
  rw [Pile.length_exchanged] at h
  omega

/-- A card that is found is one that was looked for, and lies in the zone in which it is found. -/
theorem of_search {z : Zones} {p : Card → Bool} {zones : List Zone} {zone : Zone} {c : Card}
    (h : z.search p zones = some (zone, c)) : p c = true ∧ c ∈ z.pile zone := by
  induction zones with
  | nil => cases h
  | cons first rest ih =>
    unfold search at h
    split at h
    · next d hd =>
      cases h
      exact ⟨List.find?_some hd, List.mem_of_find?_eq_some hd⟩
    · exact ih h

/-- The zone in which a card is found holds it. -/
theorem holds_of_search {z : Zones} {p : Card → Bool} {zones : List Zone} {zone : Zone} {c : Card}
    (h : z.search p zones = some (zone, c)) : (z.pile zone).holds c :=
  List.any_eq_true.mpr ⟨c, (of_search h).2, decide_eq_true rfl⟩

/-- Removing takes away as many cards as it says. -/
theorem length_cards_removing (p : Card → Bool) (n : Nat) (z : Zones) :
    (removing p n z).2.cards.length + (removing p n z).1 = z.cards.length := by
  induction n generalizing z with
  | zero => rfl
  | succ n ih =>
    unfold removing
    split
    · rfl
    · next zone c hc =>
      have hrest := ih (z.update zone (·.without c))
      have hone := length_cards_update_without (holds_of_search hc)
      dsimp only
      omega

/-- The cards of an owner are those that go when the owner does. -/
theorem length_cards_withoutOwner (z : Zones) (owner : String) :
    (z.withoutOwner owner).cards.length + z.cards.countP (·.owner = some owner) =
      z.cards.length := by
  have hcards : (z.withoutOwner owner).cards = z.cards.filter (·.owner ≠ some owner) := by
    simp only [cards, withoutOwner, List.filter_append]
  rw [hcards, ← List.countP_eq_length_filter, Nat.add_comm]
  have h := List.length_eq_countP_add_countP (fun c : Card => decide (c.owner = some owner))
    (l := z.cards)
  rw [h]
  congr 1
  exact List.countP_congr fun c _ => by simp

end Zones

/-- The second table has as many cards as the first. -/
def Table.SameSize (t u : Table) : Prop := u.headcount = t.headcount

namespace Table.SameSize

variable {r : Rules} {α : Type}

instance : IsPreorder Table SameSize where
  refl _ := rfl
  trans _ _ _ h k := Eq.trans k h

theorem keeps_of_reorders {x : Play α} (h : Keeps Reorders x) : Keeps SameSize x :=
  h.mono fun _ _ hreorders => hreorders.perm.length_eq

theorem moveToDeckBottom (a : Assignment) : Keeps SameSize (a.moveToDeckBottom r) := by
  refine .bind (Play.keeps_serve fun t => ?_) fun _ => .pure _
  exact Zones.length_cards_toBottom t.game.zones a.targets

theorem settled (boosts : Boosts) (cs : List Card) (z : Zones) :
    (Deck.settled r boosts cs z).2.cards.length = z.cards.length := by
  induction cs generalizing z with
  | nil => rfl
  | cons c rest ih =>
    unfold Deck.settled
    split
    · exact (ih _).trans (z.length_cards_layAway c)
    · exact ih z

theorem settle (a : Assignment) : Keeps SameSize (a.settle r) := by
  unfold Assignment.settle
  refine .ite (.pure _) (.bind (Play.keeps_serve fun t => ?_) fun total => ?_)
  · exact settled t.game.boosts a.targets t.game.zones
  · exact keeps_of_reorders (Reorders.keeps_of_aside (Aside.gainOfSettled a total))

/-- An upgraded card takes the place of the one before. -/
theorem upgraded (cs : List Card) (g : GameState) :
    (Assignment.upgraded r cs g).2.zones.cards.length = g.zones.cards.length := by
  induction cs generalizing g with
  | nil => rfl
  | cons c rest ih =>
    unfold Assignment.upgraded
    split
    · exact ih g
    · split
      · exact (ih _).trans (g.zones.length_cards_update_exchanged .hand c _)
      · exact ih g

theorem upgradeTreasure (a : Assignment) : Keeps SameSize (a.upgradeTreasure r) :=
  .bind (fun t => upgraded a.targets t.game) fun _ => .pure _

theorem upgradeCardInDeck (a : Assignment) : Keeps SameSize a.upgradeCardInDeck := by
  refine .bind (keeps_of_reorders Reorders.game) fun g => ?_
  split
  · next zone c _ _ => exact fun t => t.game.zones.length_cards_update_exchanged zone c _
  · exact .pure _

end Table.SameSize

/-! ## The death of a unit -/

namespace Roster

variable {r : Rules} {t : Table} {u : Resident} {i : Nat}

/-- A picked unit is in its place in the list. -/
theorem getElem?_of_pickUnit {p : Resident → Bool}
    (h : (exec (Assignment.pickUnit p) t).1 = .ok (some (u, i))) :
    t.game.residents[i]? = some u := by
  unfold Assignment.pickUnit at h
  rw [Play.exec_game_bind, Play.exec_throwDice] at h
  have hmem := Random.Dice.mem_of_pick (Except.ok.inj h)
  exact List.mem_zipIdx_iff_getElem?.mp (List.mem_filter.mp hmem).1

/-- The unit that is meant by its place in the list. -/
theorem resident_listed (hu : t.game.residents[i]? = some u) :
    (Member.listed i).resident t.game = u := by
  rw [Member.resident, List.getD_eq_getElem?_getD, hu, Option.getD_some]

/-- A unit that leaves its house leaves the first place that it has there. It stays in its place in
the list, with its id. -/
theorem exec_leaveHouse (hu : t.game.residents[i]? = some u) :
    (∃ f, exec (removeUnit r (.listed i)) t = (.error f, t)) ∨
      ∃ u' b, u'.unitId = u.unitId ∧ exec (removeUnit r (.listed i)) t = (.ok (u', b),
        { t with game := { t.game with
          houses := (vacated u t.game.houses).getD t.game.houses
          residents := t.game.residents.set i u' } }) := by
  obtain ⟨hi, hget⟩ := List.getElem?_eq_some_iff.mp hu
  unfold removeUnit
  rw [Play.exec_serve]
  split
  · exact .inl ⟨_, rfl⟩
  · refine .inr ?_
    rw [Play.exec_game_bind, resident_listed hu]
    dsimp only
    split
    · next houses hhouses =>
      rw [hhouses]
      exact ⟨{ u with houseId := none }, true, rfl, rfl⟩
    · next hhouses =>
      -- A unit without a place is written back as it was.
      refine ⟨u, false, rfl, ?_⟩
      rw [hhouses, exec_pure, ← hget, List.set_getElem_self]
      rfl

/-- The houses after the death of a unit: it leaves the house that it remembers, unless that has the
empty name. -/
def bereft (u : Resident) (houses : List House) : List House :=
  if u.houseId.getD "" = "" then houses else (vacated u houses).getD houses

/-- A death takes the unit from its house, from the list and its cards from all zones, or fails and
changes nothing. -/
theorem exec_killUnit (hu : t.game.residents[i]? = some u) :
    (∃ f, exec (killUnit r (.listed i)) t = (.error f, t)) ∨
      ∃ rest, rest.Perm (t.game.residents.eraseIdx i) ∧
        exec (killUnit r (.listed i)) t = (.ok (), { t with game := { t.game with
          zones := t.game.zones.withoutOwner u.unitId
          houses := bereft u t.game.houses
          residents := rest } }) := by
  obtain ⟨hi, hget⟩ := List.getElem?_eq_some_iff.mp hu
  -- Whatever the unit is like once it has left its house, it goes from the place that it has.
  have herase : ∀ u' : Resident, ((t.game.residents.set i u').erase u').Perm
      (t.game.residents.eraseIdx i) := fun u' => by
    have hperm := (List.set_perm_cons_eraseIdx hi u').erase u'
    rwa [List.erase_cons_head] at hperm
  unfold killUnit bereft
  rw [Play.exec_serve]
  split
  · exact .inl ⟨_, rfl⟩
  · rw [Play.exec_game_bind, resident_listed hu]
    dsimp only
    split
    · have hsame := herase u
      rw [← hget, List.set_getElem_self, hget] at hsame
      exact .inr ⟨_, hsame, rfl⟩
    · rw [exec_bind, exec_map]
      obtain ⟨f, hleft⟩ | ⟨u', b, hid, hleft⟩ := exec_leaveHouse (r := r) hu
      · rw [hleft]
        exact .inl ⟨f, rfl⟩
      · rw [hleft]
        refine .inr ⟨_, herase u', ?_⟩
        rw [← hid]
        rfl

/-- Where no unit is gone, no cards are. -/
theorem headcount_of_residents_eq {v : Table} (hzones : v.game.zones = t.game.zones)
    (hresidents : v.game.residents = t.game.residents) :
    v.headcount + t.buried v = t.headcount := by
  have hnone : t.deceased v = [] := by
    have hself := add_tsub_cancel_right (0 : Multiset Resident) t.game.residents
    rw [zero_add] at hself
    rw [Table.deceased, hresidents, ← Multiset.coe_eq_zero, ← Multiset.coe_sub, hself]
  rw [Table.buried, hnone, Table.headcount, hzones, Table.headcount]
  simp

/-- As many cards are gone as there were of the units that are gone. -/
theorem headcount_killUnit (hu : t.game.residents[i]? = some u) :
    (exec (killUnit r (.listed i)) t).2.headcount + t.buried (exec (killUnit r (.listed i)) t).2 =
      t.headcount := by
  obtain ⟨hi, hget⟩ := List.getElem?_eq_some_iff.mp hu
  obtain ⟨f, hdone⟩ | ⟨rest, hleft, hdone⟩ := exec_killUnit (r := r) hu <;> rw [hdone]
  · exact headcount_of_residents_eq rfl rfl
  · -- The unit is the only one that is gone.
    generalize hv : ({ t with game := _ } : Table) = v
    have hzones : v.game.zones = t.game.zones.withoutOwner u.unitId := by rw [← hv]
    have hresidents : v.game.residents = rest := by rw [← hv]
    have hgone : t.deceased v = [u] := by
      have hbefore : t.game.residents.Perm (u :: t.game.residents.eraseIdx i) := by
        rw [← hget]
        exact (List.getElem_cons_eraseIdx_perm hi).symm
      refine List.perm_singleton.mp ?_
      rw [← Multiset.coe_eq_coe, Table.deceased, hresidents, ← Multiset.coe_sub,
        Multiset.coe_eq_coe.mpr hleft, Multiset.coe_eq_coe.mpr hbefore, ← Multiset.cons_coe,
        ← Multiset.singleton_add, add_tsub_cancel_right, Multiset.coe_singleton]
    have hcards := t.game.zones.length_cards_withoutOwner u.unitId
    rw [Table.headcount, hzones, Table.buried, hgone]
    rw [Table.headcount, ← hcards]
    simp

end Roster

/-! ## Every effect -/

namespace Assignment

variable {a : Assignment} {r : Rules}

/-- A result is of the kind of its effect. -/
theorem kind_of_execute (a : Assignment) (r : Rules) :
    Answers (fun result : EffectResult => result.kind = a.effect.kind) (a.execute r) := by
  unfold execute
  split
  · next kind _ =>
    cases kind
    case createTempTreasure =>
      unfold executeKind createTreasure
      dsimp only
      split
      · exact .pure rfl
      · exact .bind fun _ => .pure rfl
    case settleCard =>
      refine .ite (.pure rfl) (.bind fun total => ?_)
      dsimp only
      split
      · exact .bind fun _ => .pure rfl
      · exact .pure rfl
    case goldMultiplier =>
      unfold executeKind multiplyGold
      dsimp only
      split
      · exact .pure rfl
      · exact .bind fun _ => .pure rfl
    case gamble =>
      exact .bind fun _ => .bind fun _ => .bind fun _ => .bind fun _ => .pure rfl
    case revealAndGain | drawUntil =>
      exact .bind fun _ => .ite (.pure rfl) (.bind fun _ => .pure rfl)
    case gainUnit => exact .bind fun _ => .bind fun _ => .bind fun _ => .pure rfl
    -- Those on a unit fail where there is none.
    case removeUnit | freePromotion | addPromotionLevel =>
      refine .bind fun picked => ?_
      split
      · exact .pure rfl
      · exact .bind fun _ => .pure rfl
    case addCardToDeck => exact .ite (.pure rfl) (.bind fun _ => .pure rfl)
    case upgradeCardInDeck =>
      refine .bind fun g => ?_
      split
      · exact .bind fun _ => .bind fun _ => .pure rfl
      · exact .pure rfl
    case spendGoldPercent =>
      refine .bind fun g => .bind fun loss => ?_
      dsimp only
      split
      · exact .bind fun _ => .pure rfl
      · exact .pure rfl
    case destroyPollution | delayedGold | persistentGold | persistentMaintenance |
        maintenanceModifier =>
      exact .bind fun _ => .bind fun _ => .pure rfl
    -- All others do one thing and answer.
    all_goals exact .bind fun _ => .pure rfl
  · exact .pure rfl

/-- That an effect failed is a result of its kind as well. -/
theorem kind_of_result (a : Assignment) (r : Rules) (t : Table) :
    ((exec (a.execute r) t).1.toOption.getD a.failed).kind = a.effect.kind := by
  rcases hdone : (exec (a.execute r) t).1 with f | result
  · rfl
  · exact kind_of_execute a r t result hdone

/-- An effect that could not be carried out counts for nothing. -/
@[simp]
theorem gain_failed (kind : Word EffectKind) : (EffectResult.failed kind).gain = 0 := by
  cases kind with
  | known kind => exact Int.mul_zero _
  | other => rfl

/-- What a result counts has the sign of its kind. -/
theorem gain_of_kind {result : EffectResult} {kind : EffectKind}
    (hkind : result.kind = .known kind) : result.gain = kind.sign * result.count := by
  rw [EffectResult.gain, hkind]

/-- The number of cards changes as the result of an assignment says. -/
def Tallies (a : Assignment) (x : Play EffectResult) : Prop :=
  ∀ t, ((exec x t).2.headcount : Int) =
    t.headcount + ((exec x t).1.toOption.getD a.failed).gain

/-- What fails leaves as many cards, and its result counts none. -/
theorem tally_failed (a : Assignment) (t : Table) :
    (t.headcount : Int) = t.headcount + a.failed.gain := by
  rw [failed, gain_failed, Int.add_zero]

/-- Where as many cards are left and results count none, nothing has to be counted. -/
theorem tallies_of_sameSize {kind : EffectKind} (hkind : a.effect.kind = .known kind)
    (hsign : kind.sign = 0) (h : Keeps Table.SameSize (a.executeKind r kind)) :
    a.Tallies (a.execute r) := by
  intro t
  have hexecute : a.execute r = a.executeKind r kind := execute_of_known hkind r
  have hsize : (exec (a.executeKind r kind) t).2.headcount = t.headcount := h t
  have hanswer := kind_of_execute a r t
  rw [hexecute] at hanswer ⊢
  rw [hsize]
  rcases hdone : (exec (a.executeKind r kind) t).1 with e | result
  · exact a.tally_failed t
  · have hgain : result.gain = 0 := by
      rw [gain_of_kind ((hanswer result hdone).trans hkind), hsign, Int.zero_mul]
    change (t.headcount : Int) = t.headcount + result.gain
    rw [hgain, Int.add_zero]

theorem tallies_of_reorders {kind : EffectKind} (hkind : a.effect.kind = .known kind)
    (hsign : kind.sign = 0) (h : Keeps Table.Reorders (a.executeKind r kind)) :
    a.Tallies (a.execute r) :=
  tallies_of_sameSize hkind hsign (Table.SameSize.keeps_of_reorders h)

/-- Destroying cards says how many are gone. If it fails, it does so at once. -/
theorem headcount_destroyAll (cs : List Card) (t : Table) :
    (∃ f, exec (destroyAll r cs) t = (.error f, t)) ∨
      ∃ n u, exec (destroyAll r cs) t = (.ok n, u) ∧ u.headcount + n = t.headcount := by
  by_cases hout : Service.destroy ∈ r.outOfOrder
  · cases cs with
    | nil => exact .inr ⟨0, t, rfl, rfl⟩
    | cons c rest =>
      refine .inl ⟨.outOfOrder .destroy, ?_⟩
      rw [destroyAll, exec_bind, Deck.destroy, Play.exec_serve, if_pos hout]
  · right
    induction cs generalizing t with
    | nil => exact ⟨0, t, rfl, rfl⟩
    | cons c rest ih =>
      rw [destroyAll, exec_bind, Deck.destroy, Play.exec_serve, if_neg hout, Play.exec_game_bind]
      rcases hzone : t.game.zones.zoneOf? c with _ | zone
      · obtain ⟨n, u, hrest, hcount⟩ := ih t
        refine ⟨n, u, ?_, hcount⟩
        dsimp only
        rw [exec_pure]
        dsimp only
        rw [exec_bind, hrest]
        rfl
      · -- The card lies in the zone that was found, so one card is gone.
        have hholds : (t.game.zones.pile zone).holds c := by
          unfold Zones.zoneOf? at hzone
          exact List.find?_some (p := fun zone => (t.game.zones.pile zone).holds c) hzone
        have hone := Zones.length_cards_update_without hholds
        obtain ⟨n, u, hrest, hcount⟩ := ih { t with game := { t.game with
          zones := t.game.zones.update zone (·.without c) } }
        refine ⟨n + 1, u, ?_, ?_⟩
        · dsimp only
          rw [exec_bind, Play.exec_changeZones]
          dsimp only
          rw [exec_pure]
          dsimp only
          rw [exec_bind, hrest]
          rfl
        · unfold Table.headcount at *
          dsimp only at hcount
          omega

/-- A new copy is one card more, unless the service is out of order. -/
theorem headcount_addToHand (cardId : String) (temporary : Bool) (t : Table) :
    (∃ f, exec (Deck.addToHand r cardId temporary) t = (.error f, t)) ∨
      ∃ c u, exec (Deck.addToHand r cardId temporary) t = (.ok c, u) ∧
        u.headcount = t.headcount + 1 := by
  rw [Deck.addToHand, Play.exec_serve]
  split
  · exact .inl ⟨_, rfl⟩
  · exact .inr ⟨_, _, rfl, t.game.zones.length_cards_update_append .hand _⟩

/-- Copies that are added are as many cards more. If adding fails, it does so at once. -/
theorem headcount_addCopies (cardId : String) (n : Nat) (t : Table) :
    (∃ f, exec (addCopies r cardId n) t = (.error f, t)) ∨
      ∃ u, exec (addCopies r cardId n) t = (.ok (), u) ∧ u.headcount = t.headcount + n := by
  by_cases hout : Service.addToDiscard ∈ r.outOfOrder
  · -- Where the service is out of order, only no copies at all can be added.
    cases n with
    | zero => exact .inr ⟨t, rfl, rfl⟩
    | succ n =>
      refine .inl ⟨.outOfOrder .addToDiscard, ?_⟩
      rw [addCopies, exec_bind, exec_discard, Deck.addToDiscard, Play.exec_serve, if_pos hout]
      rfl
  · right
    induction n generalizing t with
    | zero => exact ⟨t, rfl, rfl⟩
    | succ n ih =>
      rw [addCopies, exec_bind, exec_discard, Deck.addToDiscard, Play.exec_serve, if_neg hout]
      obtain ⟨u, hrest, hcount⟩ := ih (exec (do
        let c ← Play.makeFromGame (·.newCard cardId false none)
        Play.changeZones fun z => { z with discard := z.discard ++ [c] }
        return c) t).2
      have hone := t.game.zones.length_cards_update_append .discard
        (t.game.newCard cardId false none).1
      refine ⟨u, hrest, hcount.trans ?_⟩
      rw [Nat.add_comm n 1, ← Nat.add_assoc]
      exact congrArg (· + n) hone

/-! The kinds that make or destroy cards. -/

theorem createTreasure_tallies (hkind : a.effect.kind = .known .createTempTreasure) :
    a.Tallies (a.createTreasure r) := by
  intro t
  unfold createTreasure
  split
  · exact a.tally_failed t
  · next d _ =>
    rw [exec_bind, exec_discard]
    obtain ⟨f, hdone⟩ | ⟨c, u, hdone, hone⟩ := headcount_addToHand (r := r) d.id true t <;>
      rw [hdone]
    · exact a.tally_failed t
    · change (u.headcount : Int) = t.headcount + (a.done 1 a.magnitude).gain
      rw [gain_of_kind hkind, hone]
      rfl

theorem addCardToDeck_tallies (hkind : a.effect.kind = .known .addCardToDeck) :
    a.Tallies (a.addCardToDeck r) := by
  intro t
  unfold addCardToDeck
  dsimp only
  split
  · exact a.tally_failed t
  · rw [exec_bind]
    -- The number of copies is positive, so none are lost when it is taken as a natural number.
    have hpos : 0 < a.magnitudeOr 1 := a.magnitudeOr_pos (by decide)
    obtain ⟨f, hdone⟩ | ⟨u, hdone, hmore⟩ :=
      headcount_addCopies (r := r) (a.effect.cardId.getD "") (a.magnitudeOr 1).toNat t <;>
        rw [hdone]
    · exact a.tally_failed t
    · change (u.headcount : Int) = t.headcount + (a.done (a.magnitudeOr 1) a.magnitude).gain
      rw [gain_of_kind hkind]
      dsimp only [EffectKind.sign, done]
      omega

/-- An effect that destroys some cards, whichever they are, answers how many are gone. -/
theorem tallies_of_destroyAll {kind : EffectKind} (hkind : a.effect.kind = .known kind)
    (hsign : kind.sign = -1) (cs : List Card) :
    a.Tallies (do
      let count ← destroyAll r cs
      return a.done count a.magnitude) := by
  intro t
  rw [exec_bind]
  obtain ⟨f, hdone⟩ | ⟨n, u, hdone, hfewer⟩ := headcount_destroyAll (r := r) cs t <;> rw [hdone]
  · exact a.tally_failed t
  · change (u.headcount : Int) = t.headcount + (a.done n a.magnitude).gain
    rw [gain_of_kind hkind, hsign]
    dsimp only [done]
    omega

theorem destroyCard_tallies (hkind : a.effect.kind = .known .destroyCard) :
    a.Tallies (a.destroyCard r) :=
  tallies_of_destroyAll hkind rfl a.targets

theorem destroyPollution_tallies (hkind : a.effect.kind = .known .destroyPollution) :
    a.Tallies (a.destroyPollution r) := by
  intro t
  unfold destroyPollution
  rw [Play.exec_game_bind]
  exact tallies_of_destroyAll hkind rfl _ t

theorem removeCardFromDeck_tallies (hkind : a.effect.kind = .known .removeCardFromDeck) :
    a.Tallies (a.removeCardFromDeck r) := by
  intro t
  unfold removeCardFromDeck
  rw [exec_bind, Play.exec_makeFromGame]
  have hfewer := t.game.zones.length_cards_removing (r.isMeant a.effect.cardId)
    (a.magnitudeOr 1).toNat
  generalize t.game.zones.removing (r.isMeant a.effect.cardId) (a.magnitudeOr 1).toNat =
    removed at *
  change (removed.2.cards.length : Int) = t.game.zones.cards.length +
    EffectResult.gain { a.done removed.1 a.magnitude with success := removed.1 > 0 }
  rw [gain_of_kind hkind]
  dsimp only [EffectKind.sign, done]
  omega

/-- A unit that dies takes its cards with it. -/
theorem headcount_removeUnit (a : Assignment) (r : Rules) (t : Table) :
    (exec (a.removeUnit r) t).2.headcount + t.buried (exec (a.removeUnit r) t).2 = t.headcount := by
  have hpicked : ∃ dice, (exec (pickUnit fun _ => true) t).2 = { t with dice } := ⟨_, rfl⟩
  have hplace := fun u i => Roster.getElem?_of_pickUnit (t := t) (u := u) (i := i)
    (p := fun _ => true)
  obtain ⟨dice, hpicked⟩ := hpicked
  unfold removeUnit
  rw [exec_bind]
  rcases hdone : exec (pickUnit fun _ => true) t with ⟨f | picked, v⟩ <;>
    rw [hdone] at hpicked hplace
  · obtain rfl : v = _ := hpicked
    exact Roster.headcount_of_residents_eq rfl rfl
  · obtain rfl : v = _ := hpicked
    rcases picked with _ | ⟨u, i⟩
    · exact Roster.headcount_of_residents_eq rfl rfl
    · -- Answering after the death changes nothing any more.
      have hkill := Roster.headcount_killUnit (r := r) (t := { t with dice }) (hplace u i rfl)
      dsimp only
      rw [exec_bind]
      rcases hkilled : exec (Roster.killUnit r (.listed i)) { t with dice } with ⟨f | ⟨⟩, w⟩ <;>
        rw [hkilled] at hkill
      · exact hkill
      · exact hkill

/-- The number of cards changes as the result of an effect says, unless the effect is the death of a
unit. -/
theorem execute_tallies (a : Assignment) (r : Rules)
    (hremove : a.effect.kind ≠ .known .removeUnit) : a.Tallies (a.execute r) := by
  rcases hkind : a.effect.kind with kind | word
  · have hexecute : a.execute r = a.executeKind r kind := execute_of_known hkind r
    cases kind
    case removeUnit => exact absurd hkind hremove
    case createTempTreasure => exact hexecute ▸ createTreasure_tallies hkind
    case addCardToDeck => exact hexecute ▸ addCardToDeck_tallies hkind
    case destroyCard => exact hexecute ▸ destroyCard_tallies hkind
    case destroyPollution => exact hexecute ▸ destroyPollution_tallies hkind
    case removeCardFromDeck => exact hexecute ▸ removeCardFromDeck_tallies hkind
    -- Cards that are moved or replaced stay as many.
    case permanentUpgrade =>
      exact tallies_of_sameSize hkind rfl (Table.SameSize.upgradeTreasure a)
    case settleCard => exact tallies_of_sameSize hkind rfl (Table.SameSize.settle a)
    case moveToDeckBottom =>
      exact tallies_of_sameSize hkind rfl (Table.SameSize.moveToDeckBottom a)
    case upgradeCardInDeck =>
      exact tallies_of_sameSize hkind rfl (Table.SameSize.upgradeCardInDeck a)
    -- All others leave the cards on the table.
    all_goals exact tallies_of_reorders hkind rfl (Table.Reorders.executeKind a rfl)
  · rw [execute_of_unknown hkind]
    exact a.tally_failed

/-- An effect changes the number of cards as its result says, and the death of a unit takes away the
cards of the unit besides. -/
theorem headcount_execute (a : Assignment) (r : Rules) (t : Table) :
    ((exec (a.execute r) t).2.headcount : Int) +
        (if a.effect.kind = .known .removeUnit then t.buried (exec (a.execute r) t).2 else 0) =
      t.headcount + ((exec (a.execute r) t).1.toOption.getD a.failed).gain := by
  by_cases hremove : a.effect.kind = .known .removeUnit
  · rw [if_pos hremove]
    have hexecute : a.execute r = a.removeUnit r := execute_of_known hremove r
    have hneutral : ((exec (a.execute r) t).1.toOption.getD a.failed).gain = 0 :=
      (gain_of_kind ((kind_of_result a r t).trans hremove)).trans (Int.zero_mul _)
    rw [hneutral, hexecute]
    have hcount := headcount_removeUnit a r t
    omega
  · rw [if_neg hremove]
    have htallies := execute_tallies a r hremove t
    omega

end Assignment

end Treasury
