import Treasury.Proofs.Execution.Cards
import Treasury.Proofs.Execution.Headcount

/-!
# What effects do to the household

Four kinds of effects concern the units, and all others leave the household as it is. What the four
may do is said once, in `Table.HouseholdStep`, so that what holds of units, houses and promised
promotions is proved by going through its cases.

* `Table.SameHousehold`: units, houses and promises are the same.
* `Assignment.exec_gainUnit` and `Roster.exec_setPromotionLevel`: what becomes of a recruit, and of
  a unit that is promoted.
* `Table.HouseholdStep`: a unit is promised a promotion, is promoted, joins or dies.
* `Assignment.householdStep_execute`: an effect takes at most one such step.
-/

namespace Treasury

/-- Whether effects of a kind concern the units. -/
def EffectKind.concernsUnits : EffectKind → Bool
  | .gainUnit | .removeUnit | .freePromotion | .addPromotionLevel => true
  | _ => false

/-- What belongs to a household. -/
theorem GameState.household_eq_iff {g : GameState} {residents : List Resident}
    {houses : List House} {made : Nat} : g.household = (residents, houses, made) ↔
      g.residents = residents ∧ g.houses = houses ∧ g.unitsMade = made := by
  simp only [household, Prod.mk.injEq]

/-- A card that a host means by its id costs the number of a copy at most. -/
theorem GameState.exists_snd_cardNamed (g : GameState) (id : String) :
    ∃ n, (g.cardNamed id).2 = { g with copiesMade := n } := by
  unfold cardNamed
  dsimp only
  split
  · exact ⟨g.copiesMade, rfl⟩
  · exact ⟨g.copiesMade + 1, rfl⟩

/-- The second table has the household of the first, and the same promotions are promised. -/
structure Table.SameHousehold (t u : Table) : Prop where
  /-- The household is the same. -/
  household : u.game.household = t.game.household
  /-- The promises are the same. -/
  promotions : u.promotions = t.promotions

namespace Table.SameHousehold

variable {r : Rules} {α : Type} {t u : Table}

instance : IsPreorder Table SameHousehold where
  refl _ := ⟨rfl, rfl⟩
  trans _ _ _ h k := ⟨k.household.trans h.household, k.promotions.trans h.promotions⟩

theorem residents (h : t.SameHousehold u) : u.game.residents = t.game.residents :=
  congrArg Prod.fst h.household

theorem houses (h : t.SameHousehold u) : u.game.houses = t.game.houses :=
  congrArg (·.2.1) h.household

theorem unitsMade (h : t.SameHousehold u) : u.game.unitsMade = t.game.unitsMade :=
  congrArg (·.2.2) h.household

/-- What has to do with gold and the turn only is nothing to the household. -/
theorem keeps_of_aside {x : Play α} (h : Keeps Aside x) : Keeps SameHousehold x :=
  h.mono fun _ _ haside => ⟨haside.household, haside.promotions⟩

/-- What has to do with cards only is nothing to it either. -/
theorem keeps_of_cardsOnly {x : Play α} (h : Keeps CardsOnly x) : Keeps SameHousehold x :=
  h.mono fun t u hcards => by
    have hhousehold : u.game.withoutCards.household = t.game.withoutCards.household :=
      congrArg GameState.household hcards.withoutCards
    exact ⟨hhousehold, hcards.promotions⟩

theorem play (c : Card) : Keeps SameHousehold (Deck.play r c) :=
  keeps_of_cardsOnly (CardsOnly.play c)

/-- Effects that do not concern the units leave the household as it is. -/
theorem executeKind (a : Assignment) {kind : EffectKind} (h : kind.concernsUnits = false) :
    Keeps SameHousehold (a.executeKind r kind) := fun t => by
  have hdiffers := DiffersIn.executeKind a r kind t
  have hunits := hdiffers.same (p := .units) (by cases kind <;> first | decide | cases h)
  have hnumbers := hdiffers.same (p := .unitNumbers) (by cases kind <;> first | decide | cases h)
  have hpromises := hdiffers.same (p := .promises) (by cases kind <;> first | decide | cases h)
  simp only [Part.Same, Prod.mk.injEq] at hunits hnumbers hpromises
  refine ⟨?_, hpromises⟩
  rw [GameState.household, hunits.1, hunits.2, hnumbers]
  rfl

end Table.SameHousehold

/-! ## Effects on the units -/

/-- The id of the `n`-th unit that a game makes. -/
def unitNumbered (n : Nat) : String := s!"unit_{n}"

/-- A unit as it joins under a number: without a house, at the lowest level and with the combat
power of that level. -/
structure Resident.IsRecruit (v : Resident) (number : Nat) : Prop where
  /-- The id is that of the number. -/
  unitId : v.unitId = unitNumbered number
  /-- The unit has no house. -/
  houseId : v.houseId = none
  /-- The level is the lowest one. -/
  level : v.level = 0
  /-- The combat power is that of the level. -/
  combatPower : Resident.powerOf v.job v.stage 0 = .ok v.combatPower

/-- What an effect may do to the household. -/
inductive Table.HouseholdStep (t u : Table) : Prop
  /-- The household stays as it is. -/
  | same (h : t.SameHousehold u)
  /-- A unit is promised a promotion. -/
  | promised {v : Resident} (hv : v ∈ t.game.residents)
    (hhousehold : u.game.household = t.game.household)
    (hpromotions : u.promotions = t.promotions ++ [v.unitId])
  /-- A unit is promoted. -/
  | raised {i : Nat} {v : Resident} (level combatPower : Int) (hv : t.game.residents[i]? = some v)
    (hhousehold : u.game.household =
      (t.game.residents.set i { v with level, combatPower }, t.game.houses, t.game.unitsMade))
    (hpromotions : u.promotions = t.promotions)
  /-- An id is made for a unit that does not join. -/
  | numbered
    (hhousehold : u.game.household = (t.game.residents, t.game.houses, t.game.unitsMade + 1))
    (hpromotions : u.promotions = t.promotions)
  /-- A unit joins and has no house. -/
  | joined {v : Resident} (hid : v.unitId = unitNumbered (t.game.unitsMade + 1))
    (hhouse : v.houseId = none)
    (hhousehold : u.game.household =
      (t.game.residents ++ [v], t.game.houses, t.game.unitsMade + 1))
    (hzones : u.game.zones = t.game.zones) (hpromotions : u.promotions = t.promotions)
  /-- A unit joins and takes a free place in a house. -/
  | lodged {v : Resident} {houseId : String} {houses : List House}
    (hid : v.unitId = unitNumbered (t.game.unitsMade + 1))
    (hplaced : Roster.placed v t.game.houses = some (houseId, houses))
    (hhousehold : u.game.household =
      (t.game.residents ++ [{ v with houseId := some houseId }], houses, t.game.unitsMade + 1))
    (hzones : u.game.zones = t.game.zones) (hpromotions : u.promotions = t.promotions)
  /-- A unit dies, and its cards leave all zones. -/
  | died {v : Resident} {rest : List Resident} (hunits : t.game.residents.Perm (v :: rest))
    (hhousehold : u.game.household =
      (rest, Roster.bereft v t.game.houses, t.game.unitsMade))
    (hzones : u.game.zones = t.game.zones.withoutOwner v.unitId)
    (hpromotions : u.promotions = t.promotions)

/-- A promotion leaves whatever does not depend on the level or the power of the unit. -/
theorem Resident.map_set_promoted {α : Type} {f : Resident → α} {us : List Resident} {i : Nat}
    {v : Resident} (hv : us[i]? = some v) (level combatPower : Int)
    (hf : f { v with level, combatPower } = f v) :
    (us.set i { v with level, combatPower }).map f = us.map f := by
  obtain ⟨hi, rfl⟩ := List.getElem?_eq_some_iff.mp hv
  rw [List.map_set, hf, ← List.map_set, List.set_getElem_self]

/-- The unit at another level. Its combat power follows, if it has one there. -/
def Resident.atLevel (u : Resident) (level : Int) : Resident :=
  { u with level, combatPower := (powerOf u.job u.stage level).toOption.getD u.combatPower }

namespace Roster

variable {r : Rules} {t : Table} {u : Resident} {i : Nat}

/-- A unit that is created joins the list under the next number, unless it fails. -/
theorem exec_createUnit (name : String) (job : Job) (stage : Stage) (t : Table) :
    (∃ f, exec (createUnit r name job stage) t = (.error f, t)) ∨
      (∃ f, exec (createUnit r name job stage) t = (.error f,
        { t with game := { t.game with unitsMade := t.game.unitsMade + 1 } })) ∨
      ∃ v : Resident, v.IsRecruit (t.game.unitsMade + 1) ∧
        exec (createUnit r name job stage) t =
          (.ok t.game.residents.length, { t with game := { t.game with
            unitsMade := t.game.unitsMade + 1, residents := t.game.residents ++ [v] } }) := by
  unfold createUnit
  rw [Play.exec_serve]
  split
  · exact .inl ⟨_, rfl⟩
  · rw [exec_bind, Play.exec_makeFromGame]
    dsimp only
    rw [exec_bind, Play.exec_calculate]
    rcases hpower : Resident.powerOf job stage 0 with e | combatPower
    · exact .inr (.inl ⟨_, rfl⟩)
    · let v : Resident :=
        { unitId := unitNumbered (t.game.unitsMade + 1), name, job, stage, combatPower }
      exact .inr (.inr ⟨v, ⟨rfl, rfl, rfl, hpower⟩, rfl⟩)

/-- A unit takes the first free place, if there is one. -/
theorem exec_autoPlace (hu : t.game.residents[i]? = some u) :
    (exec (autoPlace r (.listed i)) t).2 = t ∨
      ∃ id houses, placed u t.game.houses = some (id, houses) ∧
        (exec (autoPlace r (.listed i)) t).2 = { t with game := { t.game with
          houses, residents := t.game.residents.set i { u with houseId := some id } } } := by
  unfold autoPlace
  rw [Play.exec_serve]
  split
  · exact .inl rfl
  · rw [Play.exec_game_bind, resident_listed hu]
    dsimp only
    split
    · next id houses hplaced => exact .inr ⟨id, houses, hplaced, rfl⟩
    · exact .inl rfl

/-- A unit that is promoted is at its level before its combat power is worked out, and stays there
if that fails. -/
theorem exec_setPromotionLevel (hu : t.game.residents[i]? = some u) (level : Int) :
    exec (setPromotionLevel r (.listed i) level) t =
      if Service.setPromotionLevel ∈ r.outOfOrder then
        (.error (.outOfOrder .setPromotionLevel), t)
      else
        (((Resident.powerOf u.job u.stage level).map fun _ => ()).mapError .number,
          { t with game := { t.game with
            residents := t.game.residents.set i (u.atLevel level) } }) := by
  unfold setPromotionLevel store
  rw [Play.exec_serve]
  split
  · rfl
  · rw [Play.exec_game_bind, resident_listed hu]
    dsimp only
    rw [exec_bind, Play.exec_changeGame]
    dsimp only
    rw [exec_bind, Play.exec_calculate]
    unfold Resident.atLevel
    -- The level is stored before its power is worked out, and stays if there is none.
    rcases Resident.powerOf u.job u.stage level with e | combatPower
    · rfl
    · dsimp only [Except.mapError, Play.exec_changeGame]
      rw [List.set_set]
      rfl

end Roster

/-- A recruit joins and takes a place if there is a free one, unless something fails before. -/
theorem Assignment.exec_gainUnit (a : Assignment) (r : Rules) (t : Table) :
    (exec (a.gainUnit r) t).2 = t ∨
      (exec (a.gainUnit r) t).2 =
        { t with game := { t.game with unitsMade := t.game.unitsMade + 1 } } ∨
      ∃ v : Resident, v.IsRecruit (t.game.unitsMade + 1) ∧
        ((exec (a.gainUnit r) t).2 = { t with game := { t.game with
            unitsMade := t.game.unitsMade + 1, residents := t.game.residents ++ [v] } } ∨
          ∃ houseId houses, Roster.placed v t.game.houses = some (houseId, houses) ∧
            (exec (a.gainUnit r) t).2 = { t with game := { t.game with
              unitsMade := t.game.unitsMade + 1, houses
              residents := t.game.residents ++ [{ v with houseId := some houseId }] } }) := by
  unfold gainUnit
  rw [Play.exec_game_bind, exec_bind]
  obtain ⟨f, hdone⟩ | ⟨f, hdone⟩ | ⟨v, hv, hdone⟩ := Roster.exec_createUnit (r := r)
    s!"Recruit {t.game.residents.length + 1}" (Job.ofHint (a.effect.cardId.getD "")) .young t <;>
    rw [hdone]
  · exact .inl rfl
  · exact .inr (.inl rfl)
  · refine .inr (.inr ⟨v, hv, ?_⟩)
    dsimp only
    rw [bind_pure_comp, exec_map, exec_discard]
    dsimp only
    -- The recruit is the last one in the list.
    obtain hplaced | ⟨houseId, houses, hplaced, hdone⟩ := Roster.exec_autoPlace (r := r)
      (t := { t with game := { t.game with
        unitsMade := t.game.unitsMade + 1, residents := t.game.residents ++ [v] } })
      List.getElem?_concat_length
    · exact .inl hplaced
    · refine .inr ⟨houseId, houses, hplaced, ?_⟩
      rw [hdone]
      dsimp only
      rw [List.set_append_right _ _ le_rfl, Nat.sub_self, List.set_cons_zero]

namespace Table.HouseholdStep

variable {r : Rules} {t : Table}

/-- A recruit joins and takes a place if there is a free one. -/
theorem gainUnit (a : Assignment) (t : Table) : t.HouseholdStep (exec (a.gainUnit r) t).2 := by
  obtain hdone | hdone | ⟨v, hv, hdone | ⟨houseId, houses, hplaced, hdone⟩⟩ :=
    a.exec_gainUnit r t <;> rw [hdone]
  · exact .same (Std.Refl.refl (r := SameHousehold) t)
  · exact .numbered rfl rfl
  · exact .joined hv.unitId hv.houseId rfl rfl rfl
  · exact .lodged hv.unitId hplaced rfl rfl rfl

/-- Throwing the dice before a step is nothing to the household. -/
theorem of_rolled {t' u : Table} (hroll : t.Rolled t') (h : t'.HouseholdStep u) :
    t.HouseholdStep u := by
  obtain ⟨dice, rfl⟩ := hroll
  cases h with
  | same h => exact .same ⟨h.household, h.promotions⟩
  | promised hv hhousehold hpromotions => exact .promised hv hhousehold hpromotions
  | raised level combatPower hv hhousehold hpromotions =>
    exact .raised level combatPower hv hhousehold hpromotions
  | numbered hhousehold hpromotions => exact .numbered hhousehold hpromotions
  | joined hid hhouse hhousehold hzones hpromotions =>
    exact .joined hid hhouse hhousehold hzones hpromotions
  | lodged hid hplaced hhousehold hzones hpromotions =>
    exact .lodged hid hplaced hhousehold hzones hpromotions
  | died hunits hhousehold hzones hpromotions => exact .died hunits hhousehold hzones hpromotions

/-- An effect on a picked unit takes a step if it does so whichever unit is picked, and does nothing
if there is none. -/
theorem pickUnit_bind {α : Type} {p : Resident → Bool} {f : Option (Resident × Nat) → Play α}
    (t : Table) (hnone : ∀ t, (exec (f none) t).2 = t)
    (hsome : ∀ (t : Table) {v : Resident} {i : Nat}, t.game.residents[i]? = some v →
      t.HouseholdStep (exec (f (some (v, i))) t).2) :
    t.HouseholdStep (exec (Assignment.pickUnit p >>= f) t).2 := by
  -- Picking a unit throws the dice and nothing else.
  have hroll : t.Rolled (exec (Assignment.pickUnit p) t).2 := ⟨_, rfl⟩
  rw [exec_bind]
  rcases hpicked : exec (Assignment.pickUnit p) t with ⟨e | _ | ⟨v, i⟩, t'⟩ <;>
    rw [hpicked] at hroll
  · cases hpicked
  · refine of_rolled hroll ?_
    dsimp only
    rw [hnone]
    exact .same (Std.Refl.refl (r := SameHousehold) t')
  · have hv := Roster.getElem?_of_pickUnit (congrArg Prod.fst hpicked)
    refine of_rolled hroll (hsome t' ?_)
    obtain ⟨dice, rfl⟩ := hroll
    exact hv

theorem removeUnit (a : Assignment) (t : Table) : t.HouseholdStep (exec (a.removeUnit r) t).2 := by
  refine pickUnit_bind t (fun _ => rfl) fun t v i hv => ?_
  dsimp only
  rw [bind_pure_comp, exec_map]
  obtain ⟨f, hdone⟩ | ⟨rest, hrest, hdone⟩ := Roster.exec_killUnit (r := r) hv <;> rw [hdone]
  · exact .same (Std.Refl.refl (r := SameHousehold) t)
  · obtain ⟨hi, rfl⟩ := List.getElem?_eq_some_iff.mp hv
    have hunits := (List.getElem_cons_eraseIdx_perm hi).symm.trans (hrest.symm.cons _)
    exact .died hunits rfl rfl rfl

theorem freePromotion (a : Assignment) (t : Table) :
    t.HouseholdStep (exec (a.freePromotion r) t).2 := by
  refine pickUnit_bind t (fun _ => rfl) fun t v i hv => ?_
  dsimp only
  rw [bind_pure_comp, exec_map, Roster.requestFreePromotion, Play.exec_serve]
  split
  · exact .same (Std.Refl.refl (r := SameHousehold) t)
  · rw [Play.exec_game_bind, Roster.resident_listed hv]
    dsimp only
    split
    · exact .promised (List.mem_of_getElem? hv) rfl rfl
    · exact .same (Std.Refl.refl (r := SameHousehold) t)

theorem addPromotionLevel (a : Assignment) (t : Table) :
    t.HouseholdStep (exec (a.addPromotionLevel r) t).2 := by
  refine pickUnit_bind t (fun _ => rfl) fun t v i hv => ?_
  dsimp only
  rw [bind_pure_comp, exec_map, Roster.exec_setPromotionLevel hv]
  split
  · exact .same (Std.Refl.refl (r := SameHousehold) t)
  · exact .raised _ _ hv rfl rfl

end Table.HouseholdStep

/-- An effect does one thing to the household at most. -/
theorem Assignment.householdStep_execute (a : Assignment) (r : Rules) (t : Table) :
    t.HouseholdStep (exec (a.execute r) t).2 := by
  rcases hkind : a.effect.kind with kind | word
  · have hexecute : a.execute r = a.executeKind r kind := execute_of_known hkind r
    rw [hexecute]
    cases kind
    case gainUnit => exact .gainUnit a t
    case removeUnit => exact .removeUnit a t
    case freePromotion => exact .freePromotion a t
    case addPromotionLevel => exact .addPromotionLevel a t
    all_goals exact .same (Table.SameHousehold.executeKind a rfl t)
  · rw [execute_of_unknown hkind]
    exact .same (Std.Refl.refl (r := Table.SameHousehold) t)

end Treasury
