import Treasury.Proofs.Execution.Ownership
import Treasury.Proofs.Session.Deeds

/-!
# Units that are spoken of

Units are spoken of by their ids in two places: cards name the units that own them, and the service
that keeps the units notes for whom a free promotion was asked. When a unit dies its cards leave all
zones, but a promotion that it was promised stays noted. Apart from that only a card from outside
can bring in the id of a unit that is gone: a target that is not on the table and belongs to such a
unit, and that is put down or upgraded in the place of a hand card.

* `Table.Grounded`: all units that are spoken of are there.
* `Execution.Forsakes` and `Execution.Revives` are the two exceptions, and
  `Execution.grounded_after_iff` says that there are no others.
* `Session.grounded_iff_of_calls` is the statement for runs, and
  `not_grounded_of_death_of_promised_unit` a run that leaves a promise to a unit that is gone.
-/

namespace Treasury

/-- A unit of the given id is there. -/
def GameState.Lives (g : GameState) (id : String) : Prop := id ∈ g.residents.map (·.unitId)

instance (g : GameState) (id : String) : Decidable (g.Lives id) :=
  inferInstanceAs (Decidable (id ∈ g.residents.map (·.unitId)))

namespace Table

variable {t u : Table}

/-- All units that are spoken of are there. -/
structure Grounded (t : Table) : Prop where
  /-- Whoever owns a card is there. -/
  owners : ∀ id ∈ t.owners, t.game.Lives id
  /-- Whoever was promised a promotion is there. -/
  promises : ∀ id ∈ t.promotions, t.game.Lives id

instance (t : Table) : Decidable t.Grounded :=
  decidable_of_iff ((∀ id ∈ t.owners, t.game.Lives id) ∧ ∀ id ∈ t.promotions, t.game.Lives id)
    ⟨fun ⟨howners, hpromises⟩ => ⟨howners, hpromises⟩, fun h => ⟨h.owners, h.promises⟩⟩

/-- With the same household and no more cards, all units that are spoken of are still there. -/
theorem Grounded.of_sameHousehold (h : t.Grounded) (hsame : t.SameHousehold u)
    (hcards : u.game.zones.cards ⊆ t.game.zones.cards) : u.Grounded where
  owners id hid := by
    rw [GameState.Lives, hsame.residents]
    exact h.owners id (Pile.owners_subset hcards hid)
  promises id hid := by
    rw [GameState.Lives, hsame.residents]
    exact h.promises id (hsame.promotions ▸ hid)

/-! ## One effect -/

/-- The units stay and at most one of them is promised a promotion, or one joins, or one goes and
its cards go with it. -/
theorem HouseholdStep.ids_cases (h : t.HouseholdStep u) :
    (u.game.residents.map (·.unitId) = t.game.residents.map (·.unitId) ∧
        (u.promotions = t.promotions ∨
          ∃ id, t.game.Lives id ∧ u.promotions = t.promotions ++ [id])) ∨
      (∃ id, u.game.residents.map (·.unitId) = t.game.residents.map (·.unitId) ++ [id] ∧
        u.game.zones = t.game.zones ∧ u.promotions = t.promotions) ∨
      ∃ id, (t.game.residents.map (·.unitId)).Perm (id :: u.game.residents.map (·.unitId)) ∧
        u.game.zones = t.game.zones.withoutOwner id ∧ u.promotions = t.promotions := by
  -- All steps but one say what the residents are afterwards.
  have hresidents : ∀ {residents : List Resident} {houses : List House} {made : Nat},
      u.game.household = (residents, houses, made) → u.game.residents = residents :=
    fun hhousehold => (GameState.household_eq_iff.mp hhousehold).1
  cases h with
  | same h => exact .inl ⟨by rw [h.residents], .inl h.promotions⟩
  | promised hv hhousehold hpromotions =>
    exact .inl ⟨by rw [hresidents hhousehold],
      .inr ⟨_, List.mem_map_of_mem hv, hpromotions⟩⟩
  | @raised i v level combatPower hv hhousehold hpromotions =>
    refine .inl ⟨?_, .inl hpromotions⟩
    rw [hresidents hhousehold]
    exact Resident.map_set_promoted hv level combatPower rfl
  | numbered hhousehold hpromotions =>
    exact .inl ⟨by rw [hresidents hhousehold], .inl hpromotions⟩
  | @joined v _ _ hhousehold hzones hpromotions =>
    refine .inr (.inl ⟨v.unitId, ?_, hzones, hpromotions⟩)
    rw [hresidents hhousehold, List.map_append]
    rfl
  | @lodged v _ _ _ _ hhousehold hzones hpromotions =>
    refine .inr (.inl ⟨v.unitId, ?_, hzones, hpromotions⟩)
    rw [hresidents hhousehold, List.map_append]
    rfl
  | @died v rest hunits hhousehold hzones hpromotions =>
    refine .inr (.inr ⟨v.unitId, ?_, hzones, hpromotions⟩)
    rw [hresidents hhousehold]
    exact hunits.map (·.unitId)

/-- A unit that still owns a card has not gone. -/
theorem HouseholdStep.lives_of_owner (h : t.HouseholdStep u) {id : String}
    (hid : t.game.Lives id) (howner : id ∈ u.owners) : u.game.Lives id := by
  obtain ⟨hids, -⟩ | ⟨new, hids, -⟩ | ⟨gone, hids, hzones, -⟩ := h.ids_cases
  · rwa [GameState.Lives, hids]
  · rw [GameState.Lives, hids]
    exact List.mem_append_left _ hid
  · -- The unit that is gone took its cards with it, so it is another one.
    rw [owners, hzones] at howner
    have hother := (Zones.mem_owners_withoutOwner howner).2
    exact (List.mem_cons.mp (hids.mem_iff.mp hid)).resolve_left hother

/-- A unit was there before, or nothing happens to the cards. -/
theorem HouseholdStep.lives_or_zones_eq (h : t.HouseholdStep u) {id : String}
    (hid : u.game.Lives id) : t.game.Lives id ∨ u.game.zones = t.game.zones := by
  obtain ⟨hids, -⟩ | ⟨new, -, hzones, -⟩ | ⟨gone, hids, -⟩ := h.ids_cases
  · left
    rwa [GameState.Lives, ← hids]
  · exact .inr hzones
  · exact .inl (hids.mem_iff.mpr (List.mem_cons_of_mem _ hid))

/-- Promises are kept noted, and a new one is to a unit that stays. -/
theorem HouseholdStep.mem_promotions_iff (h : t.HouseholdStep u) :
    (∀ id ∈ t.promotions, id ∈ u.promotions) ∧
      ∀ id ∈ u.promotions, id ∈ t.promotions ∨ u.game.Lives id := by
  obtain ⟨hids, hsame | ⟨new, hnew, hmore⟩⟩ | ⟨_, -, -, hsame⟩ | ⟨_, -, -, hsame⟩ := h.ids_cases
  · exact ⟨fun _ hid => hsame ▸ hid, fun _ hid => .inl (hsame ▸ hid)⟩
  · rw [hmore]
    refine ⟨fun _ => List.mem_append_left _, fun id hid => ?_⟩
    refine (List.mem_append.mp hid).imp_right fun hid => ?_
    rw [List.mem_singleton.mp hid, GameState.Lives, hids]
    exact hnew
  · exact ⟨fun _ hid => hsame ▸ hid, fun _ hid => .inl (hsame ▸ hid)⟩
  · exact ⟨fun _ hid => hsame ▸ hid, fun _ hid => .inl (hsame ▸ hid)⟩

end Table

namespace Execution

variable {r : Rules} {x : Execution}

/-- An effect lets a unit go that was promised a promotion. -/
def Forsakes (r : Rules) (x : Execution) : Prop :=
  ∃ v ∈ x.before.game.residents, v.unitId ∈ x.before.promotions ∧
    ¬ (x.after r).game.Lives v.unitId

instance (r : Rules) (x : Execution) : Decidable (x.Forsakes r) :=
  inferInstanceAs (Decidable (∃ v ∈ x.before.game.residents, v.unitId ∈ x.before.promotions ∧
    ¬ (x.after r).game.Lives v.unitId))

/-- An effect has a target that belongs to a unit which is not there, and brings a card of that unit
onto the table. -/
def Revives (r : Rules) (x : Execution) : Prop :=
  ∃ c ∈ x.assignment.targets, ∃ id, c.owner = some id ∧ ¬ x.before.game.Lives id ∧
    id ∈ (x.after r).owners

/-- Cards on the table belong to units that are there, so as targets they revive no others. -/
theorem not_revives_of_targets (hx : x.before.Grounded)
    (htargets : ∀ c ∈ x.assignment.targets, c ∈ x.before.game.zones.cards) : ¬ x.Revives r := by
  rintro ⟨c, hc, id, howner, hgone, -⟩
  exact hgone (hx.owners id (Pile.mem_owners_iff.mpr ⟨c, htargets c hc, howner⟩))

/-- After an effect, owners of cards are there unless it revives one that is not. -/
theorem owners_after_iff (hx : x.before.Grounded) :
    (∀ id ∈ (x.after r).owners, (x.after r).game.Lives id) ↔ ¬ x.Revives r := by
  have hstep : x.before.HouseholdStep (x.after r) := x.assignment.householdStep_execute r x.before
  constructor
  · rintro hafter ⟨c, -, id, -, hgone, howner⟩
    rcases hstep.lives_or_zones_eq (hafter id howner) with hlives | hzones
    · exact hgone hlives
    · -- Where a unit joins, the cards are those of before.
      refine hgone (hx.owners id ?_)
      rwa [Table.owners, hzones] at howner
  · intro hnone id howner
    by_cases hlives : x.before.game.Lives id
    · exact hstep.lives_of_owner hlives howner
    · -- The unit owned no card before, so it owns one of the targets.
      rcases x.assignment.inherits_execute r x.before id howner with hbefore | htarget
      · exact absurd (hx.owners id hbefore) hlives
      · obtain ⟨c, hc, hown⟩ := Pile.mem_owners_iff.mp htarget
        exact absurd ⟨c, hc, id, hown, hlives, howner⟩ hnone

/-- After an effect, units that were promised promotions are there unless it lets one go. -/
theorem promises_after_iff (hx : x.before.Grounded) :
    (∀ id ∈ (x.after r).promotions, (x.after r).game.Lives id) ↔ ¬ x.Forsakes r := by
  have hstep : x.before.HouseholdStep (x.after r) := x.assignment.householdStep_execute r x.before
  obtain ⟨hkept, hnew⟩ := hstep.mem_promotions_iff
  constructor
  · rintro hafter ⟨v, -, hpromised, hgone⟩
    exact hgone (hafter _ (hkept _ hpromised))
  · intro hnone id hid
    rcases hnew id hid with hpromised | hlives
    · obtain ⟨v, hv, rfl⟩ := List.mem_map.mp (hx.promises id hpromised)
      by_contra hgone
      exact hnone ⟨v, hv, hpromised, hgone⟩
    · exact hlives

/-- If all units that are spoken of are there before an effect, then they are there afterwards,
unless the effect lets a unit go that was promised a promotion or revives an owner that is gone. -/
theorem grounded_after_iff (hx : x.before.Grounded) :
    (x.after r).Grounded ↔ ¬ (x.Forsakes r ∨ x.Revives r) := by
  rw [not_or, ← owners_after_iff hx, ← promises_after_iff hx, and_comm]
  exact ⟨fun h => ⟨h.owners, h.promises⟩, fun ⟨howners, hpromises⟩ => ⟨howners, hpromises⟩⟩

end Execution

/-! ## Runs -/

/-- If it takes a bad effect to leave a unit spoken of that is not there, then along a course all
are there after every effect if and only if none is bad, and in that case also at the end. -/
theorem Table.Course.grounded_iff {r : Rules} {t u : Table} {xs : List Execution}
    (hcourse : t.Course r xs u) (bad : Execution → Prop) (ht : t.Grounded)
    (hbad : ∀ x ∈ xs, x.before.Grounded → ((x.after r).Grounded ↔ ¬ bad x)) :
    ((∀ x ∈ xs, (x.after r).Grounded) ↔ ∀ x ∈ xs, ¬ bad x) ∧
      ((∀ x ∈ xs, ¬ bad x) → u.Grounded) :=
  hcourse.holds_iff bad (fun hsame hcards hu => hu.of_sameHousehold hsame hcards) hbad ht

/-- From a table on which all units that are spoken of are there, whatever the calls, they are there
after every effect that the calls carry out if and only if none of these lets a unit go that was
promised a promotion or revives an owner that is gone; and if none does, also at the end. Where all
targets are on the table, none revives an owner. -/
theorem Session.grounded_iff_of_calls {r : Rules} {s : Session}
    (hs : s.machine.table.Grounded) (calls : List SessionCall) :
    let xs := s.executions r calls
    s.machine.table.Course r xs (s.afterAll r calls).machine.table ∧
      ((∀ x ∈ xs, (x.after r).Grounded) ↔ ∀ x ∈ xs, ¬ (x.Forsakes r ∨ x.Revives r)) ∧
      ((∀ x ∈ xs, ¬ (x.Forsakes r ∨ x.Revives r)) →
        (s.afterAll r calls).machine.table.Grounded) ∧
      ((∀ x ∈ xs, ∀ c ∈ x.assignment.targets, c ∈ x.before.game.zones.cards) →
        ((∀ x ∈ xs, (x.after r).Grounded) ↔ ∀ x ∈ xs, ¬ x.Forsakes r)) := by
  intro xs
  have hcourse := s.course_afterAll (r := r) calls
  obtain ⟨hall, hend⟩ := hcourse.grounded_iff (fun x => x.Forsakes r ∨ x.Revives r) hs
    fun x _ hx => Execution.grounded_after_iff hx
  refine ⟨hcourse, hall, hend, fun htargets => ?_⟩
  refine (hcourse.grounded_iff (Execution.Forsakes r) hs fun x hmem hx => ?_).1
  rw [Execution.grounded_after_iff hx,
    or_iff_left (Execution.not_revives_of_targets hx (htargets x hmem))]

/-- Of two units that own cards one dies, and its card goes with it. The other one stays, and is
promised a promotion. -/
theorem grounded_of_death_of_owner :
    let copper (n : Nat) (unitId : String) : Card :=
      { serial := n, instanceId := numbered "copper" n, cardId := "copper", owner := some unitId }
    let s : Session :=
      { id := "session-1", createdAt := .zero false, seed := none,
        machine := { table := {
          game := {
            zones := { hand := [copper 1 "unit_1", copper 2 "unit_2"] }
            residents := [{ unitId := "unit_1", name := "Unit" },
              { unitId := "unit_2", name := "Unit" }]
            instancesMade := 2, copiesMade := 2, unitsMade := 2 }
          dice := { twister := { words := #[], used := 0 } } } } }
    let calls : List SessionCall :=
      [.start [Group.always [{ kind := .known .removeUnit }, { kind := .known .freePromotion }]]
        none]
    let last := s.afterAll {} calls
    s.machine.table.Grounded ∧
      (s.executions {} calls).map (·.assignment.effect.kind) =
        [.known .removeUnit, .known .freePromotion] ∧
      last.game.zones.cards = [copper 2 "unit_2"] ∧ last.machine.table.promotions = ["unit_2"] ∧
      last.machine.table.Grounded := by
  intro copper s calls last
  have hs : s.machine.table.Grounded := by decide +kernel
  obtain ⟨-, hall, hend, hloyal⟩ := Session.grounded_iff_of_calls (r := {}) hs calls
  have htargets : ∀ x ∈ s.executions {} calls,
      ∀ c ∈ x.assignment.targets, c ∈ x.before.game.zones.cards := by decide +kernel
  have hnone : ∀ x ∈ s.executions {} calls, ¬ x.Forsakes {} := by decide +kernel
  have hgrounded := hend (hall.mp ((hloyal htargets).mpr hnone))
  exact ⟨hs, by decide +kernel, by decide +kernel, by decide +kernel, hgrounded⟩

/-- A unit that was promised a promotion dies, and the promise stays noted. -/
theorem not_grounded_of_death_of_promised_unit :
    let s : Session :=
      { id := "session-1", createdAt := .zero false, seed := none,
        machine := { table := {
          game := { residents := [{ unitId := "unit_1", name := "Unit" }], unitsMade := 1 }
          dice := { twister := { words := #[], used := 0 } } } } }
    let calls : List SessionCall :=
      [.start [Group.always [{ kind := .known .freePromotion }, { kind := .known .removeUnit }]]
        none]
    s.machine.table.Grounded ∧ (s.afterAll {} calls).machine.table.promotions = ["unit_1"] ∧
      (s.afterAll {} calls).game.residents = [] ∧
      ¬ (s.afterAll {} calls).machine.table.Grounded := by
  intro s calls
  refine ⟨?_, ?_, ?_, ?_⟩
  · decide +kernel
  · decide +kernel
  · decide +kernel
  · decide +kernel

end Treasury
