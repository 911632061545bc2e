import Treasury.Proofs.Execution.Household
import Treasury.Proofs.Game.Lodging
import Treasury.Proofs.Session.Deeds
import Treasury.Starter.Setup

/-!
# Units and houses stay in step

Where a unit lives is kept by the unit and by its house, and several services write to both. Through
all effects and calls the two stay in step, with one exception: a unit that dies while it lives in a
house with the empty name does not leave that house, and its place stays taken from then on.

* `GameState.Accounted` is what always holds, and `Table.HouseholdStep.accounts` is the step: it
  says which steps leave a place behind.
* `Execution.Deserts`: an effect lets a unit die that lives in a house with the empty name.
* `Session.inOrder_iff_of_calls` is the statement for runs, and
  `not_inOrder_of_death_in_unnamed_house` a run that loses a place.
-/

namespace Treasury

/-! ## Ids of units -/

/-- Ids made from different numbers differ. -/
theorem unitNumbered_inj {m n : Nat} (h : unitNumbered m = unitNumbered n) : m = n :=
  number_inj "unit_" h

/-- No unit has an id with a number that is not reached yet. -/
def GameState.UnitsNumbered (g : GameState) : Prop :=
  ∀ n, g.unitsMade < n → unitNumbered n ∉ g.residents.map (·.unitId)

/-- Units and houses are settled, and none of the ids in them is one that is still to be made. -/
structure GameState.Accounted (g : GameState) : Prop where
  /-- Units and houses are settled. -/
  settled : g.Settled
  /-- No unit has an id with a number that is not reached yet. -/
  units : g.UnitsNumbered
  /-- No place is taken by a unit with such an id. -/
  places : ∀ n, g.unitsMade < n → unitNumbered n ∉ g.lodgings.map (·.unitId)

namespace GameState

variable {g g' : GameState}

theorem InOrder.accounted (h : g.InOrder) (hunits : g.UnitsNumbered) : g.Accounted := by
  obtain ⟨hsettled, hnone⟩ := inOrder_iff.mp h
  refine ⟨hsettled, hunits, fun n hn hid => ?_⟩
  obtain ⟨l, hl, hid⟩ := List.mem_map.mp hid
  -- All places are taken by units that are there.
  refine hnone ⟨l, hl, ?_⟩
  rw [hid, ids_register]
  exact hunits n hn

/-- The household stays accounted for if its ids and places do. -/
theorem Accounted.of_subset (h : g.Accounted) (hsettled : g'.Settled)
    (hmade : g.unitsMade ≤ g'.unitsMade)
    (hids : ∀ id ∈ g'.residents.map (·.unitId), id ∈ g.residents.map (·.unitId))
    (hplaces : ∀ id ∈ g'.lodgings.map (·.unitId), id ∈ g.lodgings.map (·.unitId)) :
    g'.Accounted where
  settled := hsettled
  units n hn hid := h.units n (hmade.trans_lt hn) (hids _ hid)
  places n hn hid := h.places n (hmade.trans_lt hn) (hplaces _ hid)

end GameState

namespace Table

variable {t u : Table}

/-- A unit that lives in a house with the empty name is gone. -/
def Deserts (t u : Table) : Prop :=
  ∃ v ∈ t.game.residents, v.houseId = some "" ∧ v.unitId ∉ u.game.residents.map (·.unitId)

/-- Where no unit is gone, none deserts its place. -/
theorem not_deserts_of_subset
    (h : ∀ id ∈ t.game.residents.map (·.unitId), id ∈ u.game.residents.map (·.unitId)) :
    ¬ t.Deserts u := fun ⟨_, hv, _, hgone⟩ => hgone (h _ (List.mem_map_of_mem hv))

/-- What a step comes to: the household stays accounted for, and a place is taken by a unit that is
gone if one was before or if a unit deserts its place. -/
def Accounts (t u : Table) : Prop :=
  u.game.Accounted ∧ (u.game.Haunted ↔ t.game.Haunted ∨ t.Deserts u)

/-- A household that only counts more ids is accounted for as before. -/
theorem accounts_of_same (h : t.game.Accounted) (hreg : u.game.register = t.game.register)
    (hlod : u.game.lodgings = t.game.lodgings) (hmade : t.game.unitsMade ≤ u.game.unitsMade) :
    t.Accounts u := by
  have hids : u.game.residents.map (·.unitId) = t.game.residents.map (·.unitId) := by
    rw [← GameState.ids_register, hreg, GameState.ids_register]
  obtain ⟨hsettled, hhaunted⟩ := h.settled.of_perm (.of_eq hreg) (.of_eq hlod)
  refine ⟨h.of_subset hsettled hmade (fun _ => ?_) (fun _ => ?_), ?_⟩
  · exact fun hid => hids ▸ hid
  · exact fun hid => hlod ▸ hid
  · rw [hhaunted, or_iff_left (not_deserts_of_subset fun _ hid => hids ▸ hid)]

theorem accounts_of_household (h : t.game.Accounted) (hres : u.game.residents = t.game.residents)
    (hhouses : u.game.houses = t.game.houses) (hmade : t.game.unitsMade ≤ u.game.unitsMade) :
    t.Accounts u :=
  accounts_of_same h (GameState.register_eq_of_residents_eq hres)
    (GameState.lodgings_eq_of_houses_eq hhouses) hmade

/-- A unit that comes under the next id is accounted for. -/
theorem accounts_of_enter {v : Resident} (h : t.game.Accounted)
    (hid : v.unitId = unitNumbered (t.game.unitsMade + 1))
    (hres : u.game.residents = t.game.residents ++ [v])
    (hlod : u.game.lodgings.Perm (v.lodging?.toList ++ t.game.lodgings))
    (hmade : u.game.unitsMade = t.game.unitsMade + 1) : t.Accounts u := by
  have hreg : u.game.register.Perm ((v.unitId, v.lodging?) :: t.game.register) := by
    rw [GameState.register, hres, List.map_append]
    exact List.perm_append_singleton ..
  have hnew := h.units _ (Nat.lt_succ_self t.game.unitsMade)
  have hfree := h.places _ (Nat.lt_succ_self t.game.unitsMade)
  rw [← hid] at hnew hfree
  obtain ⟨hsettled, hhaunted⟩ := h.settled.enter hreg hlod
    (by rwa [GameState.ids_register]) hfree
  refine ⟨⟨hsettled, fun n hn hused => ?_, fun n hn hused => ?_⟩, ?_⟩
  · rw [hmade] at hn
    rw [hres, List.map_append, List.mem_append] at hused
    rcases hused with hused | hused
    · exact h.units n (by omega) hused
    · have hsame : n = t.game.unitsMade + 1 :=
        unitNumbered_inj ((List.mem_singleton.mp hused).trans hid)
      omega
  · rw [hmade] at hn
    obtain ⟨l, hl, hused⟩ := List.mem_map.mp hused
    rcases List.mem_append.mp (hlod.mem_iff.mp hl) with hl | hl
    · -- The place of the unit that came has the next id.
      have hown := Resident.unitId_of_lodging? (Option.mem_toList.mp hl)
      have hsame : n = t.game.unitsMade + 1 :=
        unitNumbered_inj (hused.symm.trans (hown.trans hid))
      omega
    · exact h.places n (by omega) (List.mem_map.mpr ⟨l, hl, hused⟩)
  · rw [hhaunted, or_iff_left (not_deserts_of_subset fun id hmem => ?_)]
    rw [hres, List.map_append]
    exact List.mem_append_left _ hmem

section Death

variable {v : Resident} (h : t.game.Accounted)
  (hunits : t.game.residents.Perm (v :: u.game.residents))

include hunits

theorem register_of_death : t.game.register.Perm ((v.unitId, v.lodging?) :: u.game.register) :=
  hunits.map fun w : Resident => (w.unitId, w.lodging?)

/-- Only units that were there before are left. -/
theorem ids_of_death : ∀ id ∈ u.game.residents.map (·.unitId),
    id ∈ t.game.residents.map (·.unitId) := fun _ hid =>
  (hunits.map (·.unitId)).mem_iff.mpr (List.mem_cons_of_mem _ hid)

include h

/-- The unit that is gone is the only one. -/
theorem deserts_iff_of_death : t.Deserts u ↔ v.houseId = some "" := by
  have hnodup := ((register_of_death hunits).map (·.1)).nodup_iff.mp h.settled.ids_nodup
  rw [List.map_cons, GameState.ids_register] at hnodup
  constructor
  · rintro ⟨w, hw, hhouse, hleft⟩
    rcases List.mem_cons.mp (hunits.mem_iff.mp hw) with rfl | hw
    · exact hhouse
    · exact absurd (List.mem_map_of_mem hw) hleft
  · intro hhouse
    exact ⟨v, hunits.mem_iff.mpr List.mem_cons_self, hhouse, (List.nodup_cons.mp hnodup).1⟩

/-- A unit that frees its place leaves none behind. -/
theorem accounts_of_exit (hmade : t.game.unitsMade ≤ u.game.unitsMade)
    (hhouse : v.houseId ≠ some "")
    (hlod : t.game.lodgings.Perm (v.lodging?.toList ++ u.game.lodgings)) : t.Accounts u := by
  obtain ⟨hsettled, hhaunted⟩ := h.settled.exit (register_of_death hunits) hlod
  refine ⟨h.of_subset hsettled hmade (ids_of_death hunits) fun id hid => ?_, ?_⟩
  · rw [(hlod.map (·.unitId)).mem_iff, List.map_append]
    exact List.mem_append_right _ hid
  · rw [hhaunted, deserts_iff_of_death h hunits, or_iff_left hhouse]

/-- A unit that keeps its place in a house with the empty name leaves it behind. -/
theorem accounts_of_desert (hmade : t.game.unitsMade ≤ u.game.unitsMade)
    (hhouse : v.houseId = some "") (hlod : u.game.lodgings = t.game.lodgings) : t.Accounts u := by
  obtain ⟨l, hl⟩ : ∃ l, v.lodging? = some l := ⟨_, by rw [Resident.lodging?, hhouse]; rfl⟩
  have hempty : l.houseId = "" :=
    Option.some.inj ((Resident.houseId_of_lodging? hl).symm.trans hhouse)
  obtain ⟨hsettled, hhaunted⟩ :=
    h.settled.desert (hl ▸ register_of_death hunits) hlod hempty
  refine ⟨h.of_subset hsettled hmade (ids_of_death hunits) fun id hid => hlod ▸ hid, ?_⟩
  exact iff_of_true hhaunted (.inr ((deserts_iff_of_death h hunits).mpr hhouse))

/-- A unit that dies frees its place, unless it lives in a house with the empty name. -/
theorem accounts_of_death (hmade : t.game.unitsMade ≤ u.game.unitsMade)
    (hhouses : u.game.houses = Roster.bereft v t.game.houses) : t.Accounts u := by
  have hlodgings : ∀ houses, u.game.houses = houses →
      u.game.lodgings = houses.flatMap (·.lodgings) := fun _ h => h ▸ rfl
  unfold Roster.bereft at hhouses
  rcases hhouse : v.houseId with _ | houseId <;> rw [hhouse] at hhouses
  · -- A unit without a house has no place to free.
    have hnone : v.lodging? = none := by rw [Resident.lodging?, hhouse]; rfl
    refine accounts_of_exit h hunits hmade (by simp [hhouse]) ?_
    rw [hnone, hlodgings _ hhouses]
    exact .refl _
  · by_cases hempty : houseId = ""
    · rw [if_pos (by rw [hempty]; rfl)] at hhouses
      exact accounts_of_desert h hunits hmade (by rw [hhouse, hempty]) (hlodgings _ hhouses)
    · rw [if_neg (show ¬ (some houseId).getD "" = "" from hempty)] at hhouses
      obtain ⟨l, hl⟩ : ∃ l, v.lodging? = some l := ⟨_, by rw [Resident.lodging?, hhouse]; rfl⟩
      have hplace : l ∈ t.game.lodgings := h.settled.kept v.unitId l
        ((register_of_death hunits).mem_iff.mpr (hl ▸ List.mem_cons_self))
      refine accounts_of_exit h hunits hmade (by simp [hhouse, hempty]) ?_
      rcases hvacated : Roster.vacated v t.game.houses with _ | houses <;>
        rw [hvacated] at hhouses
      · exact absurd (Resident.unitId_of_lodging? hl) (Roster.not_mem_of_vacated_eq_none hvacated
          hplace (Resident.houseId_of_lodging? hl))
      · -- The place that is freed is the one that the unit remembers.
        obtain ⟨-, l', hid, hfreed⟩ := Roster.lodgings_vacated hvacated
        have hplace' : l' ∈ t.game.lodgings := hfreed.mem_iff.mpr List.mem_cons_self
        obtain rfl : l' = l := List.inj_on_of_nodup_map h.settled.places_nodup hplace' hplace
          (hid.trans (Resident.unitId_of_lodging? hl).symm)
        rw [hl, hlodgings _ hhouses]
        exact hfreed

end Death

/-- Whatever step is taken, the household stays accounted for, and only a unit that deserts its
place leaves one behind. -/
theorem HouseholdStep.accounts (hstep : t.HouseholdStep u) (h : t.game.Accounted) :
    t.Accounts u := by
  cases hstep with
  | same hsame => exact accounts_of_household h hsame.residents hsame.houses hsame.unitsMade.ge
  | promised _ hhousehold _ =>
    obtain ⟨hres, hhouses, hmade⟩ := GameState.household_eq_iff.mp hhousehold
    exact accounts_of_household h hres hhouses hmade.ge
  | @raised i v level combatPower hv hhousehold _ =>
    obtain ⟨hres, hhouses, hmade⟩ := GameState.household_eq_iff.mp hhousehold
    refine accounts_of_same h ?_ (GameState.lodgings_eq_of_houses_eq hhouses) hmade.ge
    -- A promotion changes neither the id nor the house of the unit.
    rw [GameState.register, hres]
    exact Resident.map_set_promoted hv level combatPower rfl
  | numbered hhousehold _ =>
    obtain ⟨hres, hhouses, hmade⟩ := GameState.household_eq_iff.mp hhousehold
    exact accounts_of_household h hres hhouses (by omega)
  | @joined v hid hhouse hhousehold _ _ =>
    obtain ⟨hres, hhouses, hmade⟩ := GameState.household_eq_iff.mp hhousehold
    refine accounts_of_enter h hid hres ?_ hmade
    rw [Resident.lodging?, hhouse, GameState.lodgings, hhouses]
    exact .refl _
  | @lodged v houseId houses hid hplaced hhousehold _ _ =>
    obtain ⟨hres, hhouses, hmade⟩ := GameState.household_eq_iff.mp hhousehold
    refine accounts_of_enter (v := { v with houseId := some houseId }) h hid hres ?_ hmade
    rw [GameState.lodgings, hhouses]
    exact (Roster.lodgings_placed hplaced).2
  | died hunits hhousehold _ _ =>
    obtain ⟨hres, hhouses, hmade⟩ := GameState.household_eq_iff.mp hhousehold
    exact accounts_of_death h (by rwa [hres]) hmade.ge hhouses

/-- The houses keep their names. -/
theorem HouseholdStep.houseIds_eq (hstep : t.HouseholdStep u) :
    u.game.houses.map (·.houseId) = t.game.houses.map (·.houseId) := by
  -- Most steps do not touch the houses.
  have hsame : ∀ {residents : List Resident} {made : Nat},
      u.game.household = (residents, t.game.houses, made) →
        u.game.houses.map (·.houseId) = t.game.houses.map (·.houseId) := fun hhousehold => by
    rw [(GameState.household_eq_iff.mp hhousehold).2.1]
  cases hstep with
  | same h => rw [h.houses]
  | promised _ hhousehold _ => exact hsame hhousehold
  | raised _ _ _ hhousehold _ => exact hsame hhousehold
  | numbered hhousehold _ => exact hsame hhousehold
  | joined _ _ hhousehold _ _ => exact hsame hhousehold
  | lodged _ hplaced hhousehold _ _ =>
    rw [(GameState.household_eq_iff.mp hhousehold).2.1]
    exact (Roster.lodgings_placed hplaced).1
  | @died v _ _ hhousehold _ _ =>
    rw [(GameState.household_eq_iff.mp hhousehold).2.1, Roster.bereft]
    split
    · rfl
    · rcases hvacated : Roster.vacated v t.game.houses with _ | houses
      · rfl
      · exact (Roster.lodgings_vacated hvacated).1

end Table

/-! ## Runs -/

/-- An effect lets a unit go that lives in a house with the empty name. -/
def Execution.Deserts (r : Rules) (x : Execution) : Prop := x.before.Deserts (x.after r)

namespace Table.Course

variable {r : Rules} {t u : Table} {xs : List Execution}

/-- Along a course the household stays accounted for, and only units that desert their places leave
some behind. -/
theorem accounted (hcourse : t.Course r xs u) (h : t.game.Accounted) :
    u.game.Accounted ∧ (u.game.Haunted ↔ t.game.Haunted ∨ ∃ x ∈ xs, x.Deserts r) := by
  refine hcourse.effect_induction (motive := fun xs u =>
    u.game.Accounted ∧ (u.game.Haunted ↔ t.game.Haunted ∨ ∃ x ∈ xs, x.Deserts r)) ?_ ?_ ?_
  · exact ⟨h, by simp⟩
  · rintro xs u v hsame - ⟨hu, hhaunted⟩
    obtain ⟨hv, hstep⟩ := accounts_of_household hu hsame.residents hsame.houses hsame.unitsMade.ge
    refine ⟨hv, ?_⟩
    rw [hstep, hhaunted, or_iff_left (not_deserts_of_subset fun _ hid => hsame.residents ▸ hid)]
  · rintro xs x ⟨hx, hhaunted⟩
    obtain ⟨hafter, hstep⟩ := (x.assignment.householdStep_execute r x.before).accounts hx
    refine ⟨hafter, ?_⟩
    have hdeserts : x.before.Deserts (exec (x.assignment.execute r) x.before).2 ↔ x.Deserts r :=
      Iff.rfl
    rw [Execution.after, hstep, hhaunted, hdeserts]
    simp only [List.mem_append, List.mem_singleton, or_and_right, exists_or, exists_eq_left,
      or_assoc]

theorem houseIds_eq (hcourse : t.Course r xs u) :
    u.game.houses.map (·.houseId) = t.game.houses.map (·.houseId) := by
  refine hcourse.effect_induction (motive := fun _ u =>
    u.game.houses.map (·.houseId) = t.game.houses.map (·.houseId)) rfl ?_ ?_
  · intro _ u v hsame _ hu
    rw [hsame.houses, hu]
  · intro _ x hx
    rw [Execution.after, (x.assignment.householdStep_execute r x.before).houseIds_eq, hx]

end Table.Course

/-! ## Openings -/

namespace Starter

/-- Copies of cards are nothing to the household. -/
theorem household_copies (cardIds : List String) (g : GameState) :
    (copies cardIds g).2.household = g.household := by
  induction cardIds generalizing g with
  | nil => rfl
  | cons cardId rest ih => exact ih (g.newCard cardId false none).2

/-- All games of the starter have one household at their start. -/
theorem household_setup (seed : Option Int) (entropy : Int) (o : Options) :
    (setup seed entropy o).household = (withHousehold {}).household := by
  -- Copies of cards change nothing of the household, so only the pawn is in it.
  have hgame : ∀ gameId d, (gameOf gameId o d).household = (withHousehold {}).household := by
    intro gameId d
    unfold gameOf
    dsimp only
    have hcopies := household_copies (if o.deck.isEmpty then defaultDeck else o.deck)
      { gameId, gold := o.gold }
    generalize copies (if o.deck.isEmpty then defaultDeck else o.deck)
      { gameId, gold := o.gold } = made at hcopies ⊢
    obtain ⟨hres, -, hmade⟩ := GameState.household_eq_iff.mp hcopies
    simp only [withHousehold, withPawn, GameState.newUnitId, GameState.household, hres, hmade]
  cases seed with
  | some n => exact hgame _ _
  | none => exact hgame _ _

end Starter

namespace GameState

variable {g g' : GameState}

/-- Whether all is in order is a matter of the household. -/
theorem InOrder.of_household (h : g'.household = g.household) (hg : g.InOrder) : g'.InOrder := by
  obtain ⟨hres, hhouses, -⟩ := household_eq_iff.mp h
  have hlod : g'.lodgings = g.lodgings := lodgings_eq_of_houses_eq hhouses
  obtain ⟨hids, hplaces, hkept, hremembered⟩ := hg
  rw [← hres] at hids hkept hremembered
  rw [← hlod] at hplaces hkept hremembered
  exact ⟨hids, hplaces, hkept, hremembered⟩

theorem UnitsNumbered.of_household (h : g'.household = g.household) (hg : g.UnitsNumbered) :
    g'.UnitsNumbered := by
  obtain ⟨hres, -, hmade⟩ := household_eq_iff.mp h
  rwa [UnitsNumbered, hres, hmade]

/-- A household that a run may start from: that of a new game of the starter, or any that is in
order and has no unit with an id that is still to be made. -/
def Homely (g : GameState) : Prop :=
  (∃ seed entropy o, g = Starter.setup seed entropy o) ∨ (g.InOrder ∧ g.UnitsNumbered)

end GameState

namespace Starter

theorem residents_withHousehold :
    (withHousehold {}).residents.map (·.unitId) = [unitNumbered 1, unitNumbered 2] := rfl

/-- The household of a new game is in order, and its next unit is the third. -/
theorem inOrder_setup (seed : Option Int) (entropy : Int) (o : Options) :
    (setup seed entropy o).InOrder ∧ (setup seed entropy o).UnitsNumbered := by
  have hhousehold := household_setup seed entropy o
  have hnumbered : (withHousehold {}).UnitsNumbered := by
    intro n (hn : 2 < n) hid
    rw [residents_withHousehold] at hid
    simp only [List.mem_cons, List.not_mem_nil, or_false] at hid
    rcases hid with hid | hid <;> have := unitNumbered_inj hid <;> omega
  have hinOrder : (withHousehold {}).InOrder := by decide +kernel
  exact ⟨hinOrder.of_household hhousehold, hnumbered.of_household hhousehold⟩

end Starter

theorem GameState.Homely.inOrder {g : GameState} (h : g.Homely) : g.InOrder ∧ g.UnitsNumbered := by
  rcases h with ⟨seed, entropy, o, rfl⟩ | h
  · exact Starter.inOrder_setup seed entropy o
  · exact h

/-- In a house that has a name no unit leaves a place behind. -/
theorem GameState.Settled.inOrder {g : GameState} (h : g.Settled)
    (hnamed : ∀ h ∈ g.houses, h.houseId ≠ "") : g.InOrder := by
  refine inOrder_iff.mpr ⟨h, ?_⟩
  rintro ⟨l, hl, hgone⟩
  rcases h.remembered l hl with hmem | ⟨hempty, -⟩
  · exact hgone (List.mem_map_of_mem hmem)
  · obtain ⟨house, hhouse, hid⟩ := List.mem_map.mp (houseId_mem_of_mem_lodgings hl)
    exact hnamed house hhouse (hid.trans hempty)

/-- Whatever the calls, the effects that they carry out decide whether units and houses still agree:
they do unless one of these lets a unit go that lives in a house with the empty name. Even then no
more is wrong than the places that such units left behind, and a run from a new game of the starter,
or in which all houses have names, leaves none behind. -/
theorem Session.inOrder_iff_of_calls {r : Rules} {s : Session} (hopen : s.game.Homely)
    (calls : List SessionCall) :
    let xs := s.executions r calls
    (s.machine.table.Course r xs (s.afterAll r calls).machine.table ∧
        ((s.afterAll r calls).game.InOrder ↔ ∀ x ∈ xs, ¬ x.Deserts r)) ∧
      (s.afterAll r calls).game.Settled ∧
      (((∃ seed entropy o, s.game = Starter.setup seed entropy o) ∨
          ∀ h ∈ s.game.houses, h.houseId ≠ "") →
        (s.afterAll r calls).game.InOrder) := by
  intro xs
  obtain ⟨hinOrder, hunits⟩ := hopen.inOrder
  have hcourse := s.course_afterAll (r := r) calls
  obtain ⟨haccounted, hhaunted⟩ := hcourse.accounted (hinOrder.accounted hunits)
  have hsettled : (s.afterAll r calls).game.Settled := haccounted.settled
  have hclean : ¬ s.machine.table.game.Haunted := (GameState.inOrder_iff.mp hinOrder).2
  refine ⟨⟨hcourse, ?_⟩, hsettled, fun hnamed => ?_⟩
  · calc (s.afterAll r calls).game.InOrder
        ↔ ¬ (s.afterAll r calls).game.Haunted :=
          GameState.inOrder_iff.trans (and_iff_right hsettled)
      _ ↔ ¬ ∃ x ∈ xs, x.Deserts r := not_congr (hhaunted.trans (or_iff_right hclean))
      _ ↔ ∀ x ∈ xs, ¬ x.Deserts r := by simp only [not_exists, not_and]
  · have hstart : ∀ houseId ∈ s.game.houses.map (·.houseId), houseId ≠ "" := by
      rcases hnamed with ⟨seed, entropy, o, hsetup⟩ | hnamed
      · obtain ⟨-, hhouses, -⟩ :=
          GameState.household_eq_iff.mp (Starter.household_setup seed entropy o)
        rw [hsetup, hhouses]
        decide
      · exact List.forall_mem_map.mpr hnamed
    refine hsettled.inOrder fun h hh => hstart _ ?_
    -- The names of the houses are those at the start.
    rw [show s.game.houses.map (·.houseId) = _ from hcourse.houseIds_eq.symm]
    exact List.mem_map_of_mem hh

/-- A new game whose player gains a unit and loses one keeps its household in order. -/
theorem inOrder_of_gain_and_loss :
    let s : Session :=
      { id := "session-1", createdAt := .zero false, seed := none,
        machine := { table := { game := Starter.setup (some 7) 0 {}, dice := .seeded 7 } } }
    let calls : List SessionCall :=
      [.start [Group.always [{ kind := .known .gainUnit }, { kind := .known .removeUnit }]] none]
    s.game.Homely ∧ (s.afterAll {} calls).game.InOrder := by
  intro s calls
  have hopen : s.game.Homely := .inl ⟨some 7, 0, {}, rfl⟩
  exact ⟨hopen, (Session.inOrder_iff_of_calls hopen calls).2.2 (.inl ⟨some 7, 0, {}, rfl⟩)⟩

/-- A unit that lives in a house with the empty name dies, and its place stays taken. -/
theorem not_inOrder_of_death_in_unnamed_house :
    let s : Session :=
      { id := "session-1", createdAt := .zero false, seed := none,
        machine := { table := {
          game := {
            residents := [{ unitId := "unit_1", name := "Unit", houseId := some "" }]
            houses := [{ houseId := "", adultA := some "unit_1" }], unitsMade := 1 }
          dice := { twister := { words := #[], used := 0 } } } } }
    let calls : List SessionCall :=
      [.start [Group.always [{ kind := .known .removeUnit }]] none]
    s.game.InOrder ∧ (∀ n, 1 < n → unitNumbered n ∉ s.game.residents.map (·.unitId)) ∧
      ¬ (s.afterAll {} calls).game.InOrder := by
  intro s calls
  refine ⟨by decide +kernel, fun n hn hid => ?_, by decide +kernel⟩
  have hsame : n = 1 := unitNumbered_inj (List.mem_singleton.mp hid)
  omega

end Treasury
