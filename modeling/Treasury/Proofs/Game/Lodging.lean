import Mathlib.Data.List.Nodup
import Mathlib.Data.List.Perm.Basic
import Treasury.Game.Roster

/-!
# Who lives where

Where a unit lives is written down twice: in the house, which has a place for it, and with the unit,
which remembers the house. A `Lodging` is one such entry: a house, whether the place in it is one
for a child, and the unit.

* `GameState.lodgings` are the places that are taken, and `Resident.lodging?` is the one that a unit
  remembers.
* `GameState.InOrder`: the two agree. `GameState.Settled` says so of all places but those that a
  unit left behind in a house with the empty name.
* `Roster.lodgings_placed` and `Roster.lodgings_vacated`: moving in and out takes and frees one
  place.
-/

namespace Treasury

/-- A unit in a place of a house. -/
structure Lodging where
  /-- The house. -/
  houseId : String
  /-- Whether the place is for a child. -/
  forChild : Bool
  /-- The unit. -/
  unitId : String
  deriving DecidableEq, Repr, Inhabited

/-- The places of a house that are taken. -/
def House.lodgings (h : House) : List Lodging :=
  (h.adultA.toList ++ h.adultB.toList).map (Lodging.mk h.houseId false) ++
    h.child.toList.map (Lodging.mk h.houseId true)

/-- The place that a unit remembers: one for its stage of life, in the house that it lives in. -/
def Resident.lodging? (u : Resident) : Option Lodging :=
  u.houseId.map fun houseId => { houseId, forChild := u.stage = .child, unitId := u.unitId }

/-- The places of all houses that are taken. -/
def GameState.lodgings (g : GameState) : List Lodging := g.houses.flatMap (·.lodgings)

/-- The units by their ids, each with the place that it remembers. -/
def GameState.register (g : GameState) : List (String × Option Lodging) :=
  g.residents.map fun u => (u.unitId, u.lodging?)

/-- Units and houses agree about who lives where. -/
structure GameState.InOrder (g : GameState) : Prop where
  /-- No two units have one id. -/
  ids_nodup : (g.residents.map (·.unitId)).Nodup
  /-- No unit has two places. -/
  places_nodup : (g.lodgings.map (·.unitId)).Nodup
  /-- A unit has the place that it remembers. -/
  kept : ∀ u ∈ g.residents, ∀ l ∈ u.lodging?, l ∈ g.lodgings
  /-- A place that is taken is remembered by a unit. -/
  remembered : ∀ l ∈ g.lodgings, ∃ u ∈ g.residents, u.lodging? = some l

instance (g : GameState) : Decidable g.InOrder :=
  decidable_of_iff
    ((g.residents.map (·.unitId)).Nodup ∧ (g.lodgings.map (·.unitId)).Nodup ∧
      (∀ u ∈ g.residents, ∀ l ∈ u.lodging?, l ∈ g.lodgings) ∧
      ∀ l ∈ g.lodgings, ∃ u ∈ g.residents, u.lodging? = some l)
    ⟨fun ⟨hids, hplaces, hkept, hremembered⟩ => ⟨hids, hplaces, hkept, hremembered⟩,
      fun h => ⟨h.ids_nodup, h.places_nodup, h.kept, h.remembered⟩⟩

/-- Units and houses agree about who lives where, but for places in houses with the empty name that
units which are gone left behind. -/
structure GameState.Settled (g : GameState) : Prop where
  /-- No two units have one id. -/
  ids_nodup : (g.register.map (·.1)).Nodup
  /-- No unit has two places, be it there or gone. -/
  places_nodup : (g.lodgings.map (·.unitId)).Nodup
  /-- A unit has the place that it remembers. -/
  kept : ∀ id l, (id, some l) ∈ g.register → l ∈ g.lodgings
  /-- A place that is taken is remembered by its unit, or it was left behind. -/
  remembered : ∀ l ∈ g.lodgings, (l.unitId, some l) ∈ g.register ∨
    (l.houseId = "" ∧ l.unitId ∉ g.register.map (·.1))

/-- A place is taken by a unit that is gone. -/
def GameState.Haunted (g : GameState) : Prop :=
  ∃ l ∈ g.lodgings, l.unitId ∉ g.register.map (·.1)

namespace Resident

variable {u : Resident} {l : Lodging}

theorem unitId_of_lodging? (h : u.lodging? = some l) : l.unitId = u.unitId := by
  obtain ⟨houseId, -, rfl⟩ := Option.map_eq_some_iff.mp h
  rfl

theorem houseId_of_lodging? (h : u.lodging? = some l) : u.houseId = some l.houseId := by
  obtain ⟨houseId, hhouse, rfl⟩ := Option.map_eq_some_iff.mp h
  exact hhouse

end Resident

namespace GameState

variable {g g' : GameState} {id : String} {l : Lodging}

@[simp]
theorem ids_register (g : GameState) : g.register.map (·.1) = g.residents.map (·.unitId) := by
  rw [register, List.map_map]
  rfl

/-- An entry of the register belongs to a unit. -/
theorem mem_register_iff : (id, some l) ∈ g.register ↔
    ∃ u ∈ g.residents, u.unitId = id ∧ u.lodging? = some l := by
  simp only [register, List.mem_map, Prod.mk.injEq]

/-- The place in an entry of the register is that of the unit. -/
theorem unitId_of_mem_register (h : (id, some l) ∈ g.register) : l.unitId = id := by
  obtain ⟨u, -, rfl, hlodging⟩ := mem_register_iff.mp h
  exact Resident.unitId_of_lodging? hlodging

/-- All is in order if all is settled and no place was left behind. -/
theorem inOrder_iff : g.InOrder ↔ g.Settled ∧ ¬ g.Haunted := by
  constructor
  · intro h
    -- A lodging is remembered by its unit, which is what the register lists.
    have hremembered : ∀ l ∈ g.lodgings, (l.unitId, some l) ∈ g.register := fun l hl => by
      obtain ⟨u, hu, hlodging⟩ := h.remembered l hl
      exact mem_register_iff.mpr ⟨u, hu, (Resident.unitId_of_lodging? hlodging).symm, hlodging⟩
    refine ⟨⟨?_, h.places_nodup, fun id l hl => ?_, fun l hl => .inl (hremembered l hl)⟩, ?_⟩
    · rw [ids_register]
      exact h.ids_nodup
    · obtain ⟨u, hu, -, hlodging⟩ := mem_register_iff.mp hl
      exact h.kept u hu l hlodging
    · rintro ⟨l, hl, hgone⟩
      exact hgone (List.mem_map.mpr ⟨_, hremembered l hl, rfl⟩)
  · rintro ⟨h, hnone⟩
    refine ⟨ids_register g ▸ h.ids_nodup, h.places_nodup, fun u hu l hlodging => ?_, fun l hl => ?_⟩
    · exact h.kept u.unitId l (mem_register_iff.mpr ⟨u, hu, rfl, hlodging⟩)
    · have hentry := (h.remembered l hl).resolve_right fun hleft => hnone ⟨l, hl, hleft.2⟩
      obtain ⟨u, hu, -, hlodging⟩ := mem_register_iff.mp hentry
      exact ⟨u, hu, hlodging⟩

/-- A place of a house has its name. -/
theorem houseId_mem_of_mem_lodgings (h : l ∈ g.lodgings) :
    l.houseId ∈ g.houses.map (·.houseId) := by
  obtain ⟨house, hhouse, hl⟩ := List.mem_flatMap.mp h
  refine List.mem_map.mpr ⟨house, hhouse, ?_⟩
  unfold House.lodgings at hl
  rcases List.mem_append.mp hl with hl | hl <;> obtain ⟨_, -, rfl⟩ := List.mem_map.mp hl <;> rfl

theorem register_eq_of_residents_eq (h : g'.residents = g.residents) :
    g'.register = g.register := by
  rw [register, h]
  rfl

theorem lodgings_eq_of_houses_eq (h : g'.houses = g.houses) : g'.lodgings = g.lodgings := by
  rw [lodgings, h]
  rfl

/-! ## Changes -/

namespace Settled

variable {x : String × Option Lodging}

/-- Nothing depends on the order of units and places. -/
theorem of_perm (h : g.Settled) (hreg : g'.register.Perm g.register)
    (hlod : g'.lodgings.Perm g.lodgings) : g'.Settled ∧ (g'.Haunted ↔ g.Haunted) := by
  have hids := fun id => (hreg.map (·.1)).mem_iff (a := id)
  refine ⟨⟨?_, ?_, fun id l hl => ?_, fun l hl => ?_⟩, ?_⟩
  · exact (hreg.map _).nodup_iff.mpr h.ids_nodup
  · exact (hlod.map _).nodup_iff.mpr h.places_nodup
  · exact hlod.mem_iff.mpr (h.kept id l (hreg.mem_iff.mp hl))
  · rw [hreg.mem_iff, hids]
    exact h.remembered l (hlod.mem_iff.mp hl)
  · simp only [Haunted, hlod.mem_iff, hids]

/-- A unit comes with a new id, and takes the place that it remembers. -/
theorem enter (h : g.Settled) (hreg : g'.register.Perm (x :: g.register))
    (hlod : g'.lodgings.Perm (x.2.toList ++ g.lodgings)) (hid : x.1 ∉ g.register.map (·.1))
    (hplace : x.1 ∉ g.lodgings.map (·.unitId)) : g'.Settled ∧ (g'.Haunted ↔ g.Haunted) := by
  obtain ⟨id, place⟩ := x
  have hown : ∀ l, place = some l → l.unitId = id := fun l hl =>
    unitId_of_mem_register (hreg.mem_iff.mpr (hl ▸ List.mem_cons_self))
  have hids := fun k => (hreg.map (·.1)).mem_iff (a := k)
  have hentries := fun y => hreg.mem_iff (a := y)
  have hplaces := fun l => hlod.mem_iff (a := l)
  simp only [List.map_cons, List.mem_cons, List.mem_append, Option.mem_toList]
    at hids hentries hplaces
  refine ⟨⟨?_, ?_, fun k l hl => ?_, fun l hl => ?_⟩, ?_⟩
  · exact (hreg.map _).nodup_iff.mpr (List.nodup_cons.mpr ⟨hid, h.ids_nodup⟩)
  · refine (hlod.map _).nodup_iff.mpr ?_
    cases place with
    | none => exact h.places_nodup
    | some l =>
      obtain rfl := hown l rfl
      exact List.nodup_cons.mpr ⟨hplace, h.places_nodup⟩
  -- The new entry and its place belong together, and all others were there before.
  · have := h.kept k l
    grind
  · have := h.remembered l
    grind
  · unfold Haunted
    grind

/-- A unit that has a place remembers it. -/
theorem eq_of_mem {place : Option Lodging} (h : g.Settled) (hl : l ∈ g.lodgings)
    (hentry : (l.unitId, place) ∈ g.register) : place = some l := by
  rcases h.remembered l hl with hown | ⟨-, hgone⟩
  · exact congrArg Prod.snd (List.inj_on_of_nodup_map h.ids_nodup hentry hown rfl)
  · exact absurd (List.mem_map.mpr ⟨_, hentry, rfl⟩) hgone

/-- A unit goes, and frees the place that it remembers. -/
theorem exit (h : g.Settled) (hreg : g.register.Perm (x :: g'.register))
    (hlod : g.lodgings.Perm (x.2.toList ++ g'.lodgings)) :
    g'.Settled ∧ (g'.Haunted ↔ g.Haunted) := by
  obtain ⟨id, place⟩ := x
  have hentry : (id, place) ∈ g.register := hreg.mem_iff.mpr List.mem_cons_self
  obtain ⟨hid, hnodup⟩ := List.nodup_cons.mp ((hreg.map (·.1)).nodup_iff.mp h.ids_nodup)
  have hplacesNodup := (hlod.map (·.unitId)).nodup_iff.mp h.places_nodup
  rw [List.map_append] at hplacesNodup
  have hids := fun k => (hreg.map (·.1)).mem_iff (a := k)
  have hentries := fun y => hreg.mem_iff (a := y)
  have hplaces := fun l => hlod.mem_iff (a := l)
  simp only [List.map_cons, List.mem_cons, List.mem_append, Option.mem_toList]
    at hids hentries hplaces
  -- The unit has no other place that could be left behind.
  have hfree : ∀ l ∈ g'.lodgings, l.unitId ≠ id := by
    rintro l hl rfl
    have hplace := h.eq_of_mem ((hplaces l).mpr (.inr hl)) hentry
    rw [hplace] at hplacesNodup
    exact (List.nodup_cons.mp hplacesNodup).1 (List.mem_map_of_mem hl)
  refine ⟨⟨hnodup, (List.nodup_append.mp hplacesNodup).2.1, fun k l hl => ?_, fun l hl => ?_⟩, ?_⟩
  · -- Another unit has another place than the one that is freed.
    have hl' := h.kept k l ((hentries _).mpr (.inr hl))
    have hk := unitId_of_mem_register hl
    have hne : k ≠ id := fun heq => hid (heq ▸ List.mem_map.mpr ⟨_, hl, rfl⟩)
    have hown := fun heq : place = some l => unitId_of_mem_register (heq ▸ hentry)
    grind
  · have := h.remembered l
    have := hfree l hl
    grind
  · unfold Haunted
    have hown := fun l (heq : place = some l) => unitId_of_mem_register (heq ▸ hentry)
    grind

/-- A unit goes, and leaves its place in a house with the empty name behind. -/
theorem desert (h : g.Settled) (hreg : g.register.Perm ((id, some l) :: g'.register))
    (hlod : g'.lodgings = g.lodgings) (hempty : l.houseId = "") : g'.Settled ∧ g'.Haunted := by
  have hentry : (id, some l) ∈ g.register := hreg.mem_iff.mpr List.mem_cons_self
  obtain rfl := unitId_of_mem_register hentry
  obtain ⟨hid, hnodup⟩ := List.nodup_cons.mp ((hreg.map (·.1)).nodup_iff.mp h.ids_nodup)
  have hplace := h.kept _ _ hentry
  have hids := fun k => (hreg.map (·.1)).mem_iff (a := k)
  have hentries := fun y => hreg.mem_iff (a := y)
  simp only [List.map_cons, List.mem_cons] at hids hentries
  refine ⟨⟨hnodup, hlod ▸ h.places_nodup, fun k l' hl => ?_, fun l' hl => ?_⟩, l, ?_, hid⟩
  · exact hlod ▸ h.kept k l' ((hentries _).mpr (.inr hl))
  · -- Of all places only that of the unit is not remembered any more.
    by_cases heq : l'.unitId = l.unitId
    · rw [hlod] at hl
      obtain rfl : l' = l := List.inj_on_of_nodup_map h.places_nodup hl hplace heq
      exact .inr ⟨hempty, hid⟩
    · have := h.remembered l' (hlod ▸ hl)
      grind
  · exact hlod ▸ hplace

end Settled

end GameState

/-! ## Moving in and out -/

namespace House

variable {h h' : House} {stage : Stage} {unitId : String}

/-- A unit that is admitted takes one place more. -/
theorem lodgings_admit? (hadmitted : h.admit? stage unitId = some h') :
    h'.houseId = h.houseId ∧
      h'.lodgings.Perm (⟨h.houseId, stage = .child, unitId⟩ :: h.lodgings) := by
  obtain ⟨houseId, a, b, c⟩ := h
  unfold admit? at hadmitted
  split at hadmitted
  · next hchild =>
    cases c with
    | none =>
      cases hadmitted
      refine ⟨rfl, ?_⟩
      simp only [lodgings, hchild, decide_true, Option.toList_some, Option.toList_none,
        List.map_cons, List.map_nil, List.append_nil]
      exact List.perm_append_singleton ..
    | some c => cases hadmitted
  · next hgrown =>
    rw [decide_eq_false hgrown]
    -- The first place comes before the second one.
    cases a with
    | none =>
      cases hadmitted
      exact ⟨rfl, .refl _⟩
    | some a =>
      cases b with
      | none =>
        cases hadmitted
        exact ⟨rfl, .swap ..⟩
      | some b => cases hadmitted

/-- A unit that is released frees one place. -/
theorem lodgings_release? (hrelease : h.release? unitId = some h') :
    h'.houseId = h.houseId ∧
      ∃ forChild, h.lodgings.Perm (⟨h.houseId, forChild, unitId⟩ :: h'.lodgings) := by
  obtain ⟨houseId, a, b, c⟩ := h
  unfold release? at hrelease
  split at hrelease
  · next ha =>
    cases hrelease
    obtain rfl : a = some unitId := ha
    exact ⟨rfl, false, .refl _⟩
  · -- The places are looked through in order.
    split at hrelease
    · next hb =>
      cases hrelease
      obtain rfl : b = some unitId := hb
      refine ⟨rfl, false, ?_⟩
      cases a
      · exact .refl _
      · exact List.Perm.swap ..
    · split at hrelease
      · next hc =>
        cases hrelease
        obtain rfl : c = some unitId := hc
        refine ⟨rfl, true, ?_⟩
        simp only [lodgings, Option.toList_some, Option.toList_none, List.map_cons, List.map_nil,
          List.append_nil]
        exact List.perm_append_singleton ..
      · cases hrelease

/-- A unit that is not released has no place in the house. -/
theorem not_mem_of_release?_eq_none (hrelease : h.release? unitId = none) :
    ∀ l ∈ h.lodgings, l.unitId ≠ unitId := by
  obtain ⟨houseId, a, b, c⟩ := h
  unfold release? at hrelease
  intro l hl hid
  simp only [lodgings, List.mem_append, List.mem_map, Option.mem_toList] at hl
  grind

end House

namespace Roster

variable {u : Resident} {houseId : String} {houses houses' : List House}

/-- A unit that moves in takes one place. -/
theorem lodgings_placed (h : placed u houses = some (houseId, houses')) :
    houses'.map (·.houseId) = houses.map (·.houseId) ∧
      (houses'.flatMap (·.lodgings)).Perm
        (⟨houseId, u.stage = .child, u.unitId⟩ :: houses.flatMap (·.lodgings)) := by
  induction houses generalizing houses' with
  | nil => cases h
  | cons house rest ih =>
    unfold placed at h
    split at h
    · next admitted hadmitted =>
      cases h
      obtain ⟨hname, hperm⟩ := House.lodgings_admit? hadmitted
      rw [List.map_cons, List.map_cons, hname]
      exact ⟨rfl, hperm.append_right _⟩
    · -- The house has no room, so the unit comes into one of the others.
      obtain ⟨⟨id, left⟩, hrest, heq⟩ := Option.map_eq_some_iff.mp h
      cases heq
      obtain ⟨hnames, hperm⟩ := ih hrest
      refine ⟨by rw [List.map_cons, List.map_cons, hnames], ?_⟩
      exact (hperm.append_left house.lodgings).trans List.perm_middle

/-- A unit that moves out frees one place in the house that it remembers. -/
theorem lodgings_vacated (h : vacated u houses = some houses') :
    houses'.map (·.houseId) = houses.map (·.houseId) ∧
      ∃ l : Lodging, l.unitId = u.unitId ∧
        (houses.flatMap (·.lodgings)).Perm (l :: houses'.flatMap (·.lodgings)) := by
  induction houses generalizing houses' with
  | nil => cases h
  | cons house rest ih =>
    unfold vacated at h
    split at h
    · next released hreleased =>
      cases h
      split at hreleased
      · obtain ⟨hname, forChild, hperm⟩ := House.lodgings_release? hreleased
        rw [List.map_cons, List.map_cons, hname]
        exact ⟨rfl, _, rfl, hperm.append_right _⟩
      · cases hreleased
    · -- The unit is not let go here, so it leaves one of the others.
      obtain ⟨left, hrest, heq⟩ := Option.map_eq_some_iff.mp h
      cases heq
      obtain ⟨hnames, l, hid, hperm⟩ := ih hrest
      refine ⟨by rw [List.map_cons, List.map_cons, hnames], l, hid, ?_⟩
      exact (hperm.append_left house.lodgings).trans List.perm_middle

/-- A unit that cannot move out has no place in the house that it remembers. -/
theorem not_mem_of_vacated_eq_none (h : vacated u houses = none) {l : Lodging}
    (hl : l ∈ houses.flatMap (·.lodgings)) (hhouse : u.houseId = some l.houseId) :
    l.unitId ≠ u.unitId := by
  induction houses with
  | nil => cases hl
  | cons house rest ih =>
    unfold vacated at h
    split at h
    · cases h
    · next hreleased =>
      rcases List.mem_append.mp hl with hl | hl
      · -- All lodgings in a house are under its name.
        have hname : l.houseId = house.houseId := by
          have := GameState.houseId_mem_of_mem_lodgings (g := { houses := [house] }) (l := l)
            (by simpa [GameState.lodgings] using hl)
          simpa using this
        rw [if_pos (by rw [hhouse, hname])] at hreleased
        exact House.not_mem_of_release?_eq_none hreleased l hl
      · exact ih (Option.map_eq_none_iff.mp h) hl

end Roster

end Treasury
