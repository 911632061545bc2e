import Treasury.Proofs.Execution.Guards
import Treasury.Proofs.Execution.Household

/-!
# Levels and combat power

A unit carries its combat power with it, next to the level that the power follows from. Levels are
changed by one kind of effect only, with whatever magnitude the effect comes to. The level that
comes out is held against the highest one but not against the lowest one, and it is stored before
the power is worked out, so that a level that has no power leaves the power of the level before.

* `Resident.Fit`: a unit has a level in range and the power of that level.
* `Resident.hasPower_iff`: which levels have a power.
* `Assignment.Oversteps`: a promotion takes the unit that it picks below the lowest level or to one
  that has no power.
* `Assignment.fit_execute_iff`: every effect keeps units fit, unless it oversteps.
-/

namespace Treasury

open Numeric (limit twoTo)
open Numeric.Binary64 (ofInt)

namespace Resident

variable (u : Resident)

/-- A unit is fit: its level is in range, and its combat power is that of its level. -/
structure Fit (maxLevel : Int) : Prop where
  /-- The level is not below the lowest one. -/
  nonneg : 0 ≤ u.level
  /-- The level is not above the highest one. -/
  le_max : u.level ≤ maxLevel
  /-- The combat power is that of the level. -/
  power : powerOf u.job u.stage u.level = .ok u.combatPower

instance (maxLevel : Int) : Decidable (u.Fit maxLevel) :=
  decidable_of_iff
    (0 ≤ u.level ∧ u.level ≤ maxLevel ∧ powerOf u.job u.stage u.level = .ok u.combatPower)
    ⟨fun ⟨hlow, hhigh, hpower⟩ => ⟨hlow, hhigh, hpower⟩, fun h => ⟨h.nonneg, h.le_max, h.power⟩⟩

/-- A unit has a combat power at a level: it is a child or has no job, or the power is within the
range of doubles before the age of the unit is counted. -/
def HasPower (level : Int) : Prop :=
  u.stage = .child ∨ u.job = .none ∨ (u.job.power + level * 10).natAbs < limit

/-- A stage of life leaves a part of the power, the whole at most. -/
theorem exists_share (stage : Stage) : ∃ part places : Nat,
    stage.share = .finite false part (-places) ∧ part ≤ twoTo places := by
  cases stage with
  | old => exact ⟨3 * twoTo 51, 53, rfl, by decide⟩
  | child | young | middle => exact ⟨twoTo 52, 52, rfl, Nat.le_refl _⟩

/-- A unit has a combat power at a level if one can be worked out. -/
theorem hasPower_iff (level : Int) :
    u.HasPower level ↔ ∃ power, powerOf u.job u.stage level = .ok power := by
  unfold HasPower powerOf
  split
  · next hnone => exact iff_of_true (hnone.imp_right .inl) ⟨0, rfl⟩
  · next hsome =>
    rw [← or_assoc, or_iff_right hsome, ← Numeric.Binary64.ofInt_isOk_iff]
    -- A part of a double is a double again, so only the first conversion can fail.
    constructor
    · rintro ⟨base, hbase⟩
      obtain ⟨part, places, hshare, hpart⟩ := exists_share u.stage
      rw [hbase, hshare]
      apply Numeric.Binary64.round_of_isFinite
      exact Numeric.Binary64.isFinite_mul_part Nat.one_ne_zero hpart hbase
    · rintro ⟨power, hpower⟩
      rcases hbase : ofInt (u.job.power + level * 10) with e | base
      · rw [hbase] at hpower
        cases hpower
      · exact ⟨base, rfl⟩

/-- Every level in range has a power, if the highest one is not enormous. -/
theorem hasPower_of_le {level maxLevel : Int} (hmax : 35 + 10 * maxLevel < limit) (hlow : 0 ≤ level)
    (hhigh : level ≤ maxLevel) : u.HasPower level := by
  have hjob : 0 ≤ u.job.power ∧ u.job.power ≤ 35 := by cases u.job <;> decide
  refine .inr (.inr ?_)
  omega

/-- At another level a unit is fit exactly if the level is in range and has a power. -/
theorem fit_atLevel_iff (level maxLevel : Int) :
    (u.atLevel level).Fit maxLevel ↔ (0 ≤ level ∧ level ≤ maxLevel) ∧ u.HasPower level := by
  rw [hasPower_iff]
  constructor
  · intro h
    exact ⟨⟨h.nonneg, h.le_max⟩, _, h.power⟩
  · rintro ⟨⟨hlow, hhigh⟩, power, hpower⟩
    refine ⟨hlow, hhigh, ?_⟩
    unfold atLevel
    dsimp only
    rw [hpower]
    rfl

/-- A recruit is fit, and stays so wherever it lives. -/
theorem IsRecruit.fit {u : Resident} {number : Nat} (h : u.IsRecruit number) {maxLevel : Int}
    (hmax : 0 ≤ maxLevel) (houseId : Option String) :
    ({ u with houseId } : Resident).Fit maxLevel where
  nonneg := h.level.ge
  le_max := h.level.trans_le hmax
  power := by
    dsimp only
    rw [h.level]
    exact h.combatPower

end Resident

/-- All units are fit. -/
def GameState.Fit (g : GameState) (maxLevel : Int) : Prop := ∀ u ∈ g.residents, u.Fit maxLevel

instance (g : GameState) (maxLevel : Int) : Decidable (g.Fit maxLevel) :=
  inferInstanceAs (Decidable (∀ u ∈ g.residents, u.Fit maxLevel))

/-- Fewer units are fit as well. -/
theorem GameState.Fit.of_subset {g g' : GameState} {maxLevel : Int} (h : g.Fit maxLevel)
    (hsubset : g'.residents ⊆ g.residents) : g'.Fit maxLevel :=
  fun u hu => h u (hsubset hu)

/-- If one of the units is replaced, all are fit exactly if the new one is. -/
theorem GameState.Fit.set_iff {g g' : GameState} {maxLevel : Int} (h : g.Fit maxLevel)
    {u v : Resident} {i : Nat} (hu : g.residents[i]? = some u)
    (hset : g'.residents = g.residents.set i v) : g'.Fit maxLevel ↔ v.Fit maxLevel := by
  obtain ⟨hi, -⟩ := List.getElem?_eq_some_iff.mp hu
  unfold Fit
  rw [hset]
  constructor
  · intro hall
    exact hall v (List.mem_set hi v)
  · intro hv w hw
    obtain hold | rfl := List.mem_or_eq_of_mem_set hw
    · exact h w hold
    · exact hv

/-! ## Promotions -/

namespace Assignment

variable (a : Assignment) {r : Rules} {t : Table}

/-- A promotion oversteps: it takes the unit that it picks below the lowest level, or to a level at
which the unit has no combat power. -/
def Oversteps (r : Rules) (t : Table) : Prop :=
  a.effect.kind = .known .addPromotionLevel ∧ Service.setPromotionLevel ∉ r.outOfOrder ∧
    ∃ u i, (exec (pickUnit fun _ => true) t).1 = .ok (some (u, i)) ∧
      (u.level + a.magnitude < 0 ∨
        ¬ u.HasPower (min r.config.maxPromotionLevel (u.level + a.magnitude)))

/-- A promotion that adds levels does not overstep, as long as the highest level has a power. -/
theorem not_oversteps_of_nonneg (hmax : 0 ≤ r.config.maxPromotionLevel)
    (hpower : 35 + 10 * r.config.maxPromotionLevel < limit)
    (ht : t.game.Fit r.config.maxPromotionLevel)
    (hadds : a.effect.kind = .known .addPromotionLevel → 0 ≤ a.magnitude) : ¬ a.Oversteps r t := by
  rintro ⟨hkind, -, u, i, hpicked, hbad⟩
  have hlow := (ht u (List.mem_of_getElem? (Roster.getElem?_of_pickUnit hpicked))).nonneg
  have hmagnitude := hadds hkind
  obtain hneg | hnone := hbad
  · omega
  · exact hnone (u.hasPower_of_le hpower (by omega) (min_le_left _ _))

/-- A promotion keeps units fit, unless it oversteps. -/
theorem fit_addPromotionLevel_iff (hmax : 0 ≤ r.config.maxPromotionLevel)
    (ht : t.game.Fit r.config.maxPromotionLevel)
    (hkind : a.effect.kind = .known .addPromotionLevel) :
    (exec (a.addPromotionLevel r) t).2.game.Fit r.config.maxPromotionLevel ↔
      ¬ a.Oversteps r t := by
  unfold addPromotionLevel
  obtain ⟨dice, ⟨hpicked, -⟩ | ⟨u, i, hpicked, hu, -⟩⟩ := exec_pickUnit_cases t fun _ => true
  · -- There is no unit to pick, and the effect fails without having done anything.
    rw [exec_bind, hpicked]
    refine iff_of_true ht ?_
    rintro ⟨-, -, u, i, hsome, -⟩
    rw [hpicked] at hsome
    cases hsome
  · rw [exec_bind, hpicked]
    dsimp only
    rw [bind_pure_comp, exec_map]
    have hpromoted := Roster.exec_setPromotionLevel (r := r) (t := { t with dice }) hu
      (min r.config.maxPromotionLevel (u.level + a.magnitude))
    rw [hpromoted]
    split
    · next hout => exact iff_of_true ht fun h => h.2.1 hout
    · next hserved =>
      -- The unit is at its new level now, whether or not it has a power there.
      have hoversteps : a.Oversteps r t ↔ u.level + a.magnitude < 0 ∨
          ¬ u.HasPower (min r.config.maxPromotionLevel (u.level + a.magnitude)) := by
        simp [Oversteps, hkind, hserved, hpicked]
      rw [hoversteps, ht.set_iff hu rfl, Resident.fit_atLevel_iff, not_or, not_not]
      -- The level that comes out is not above the highest one, whatever the magnitude.
      refine and_congr_left fun _ => ?_
      omega

/-! ## Every effect -/

/-- No unit joins when one is lost. -/
theorem residents_removeUnit_subset (r : Rules) (t : Table) :
    (exec (a.removeUnit r) t).2.game.residents ⊆ t.game.residents := by
  unfold removeUnit
  obtain ⟨dice, ⟨hpicked, -⟩ | ⟨u, i, hpicked, hu, -⟩⟩ := exec_pickUnit_cases t fun _ => true
  · rw [exec_bind, hpicked]
    exact List.Subset.refl _
  · rw [exec_bind, hpicked]
    dsimp only
    rw [bind_pure_comp, exec_map]
    obtain ⟨f, hdone⟩ | ⟨rest, hrest, hdone⟩ :=
      Roster.exec_killUnit (r := r) (t := { t with dice }) hu <;> rw [hdone]
    · exact List.Subset.refl _
    · exact fun v hv => List.mem_of_mem_eraseIdx (hrest.mem_iff.mp hv)

/-- A recruit is fit, and the units that are there stay as they are. -/
theorem fit_gainUnit (r : Rules) {maxLevel : Int} (hmax : 0 ≤ maxLevel)
    (ht : t.game.Fit maxLevel) : (exec (a.gainUnit r) t).2.game.Fit maxLevel := by
  obtain hdone | hdone | ⟨v, hv, hdone | ⟨houseId, houses, -, hdone⟩⟩ := a.exec_gainUnit r t <;>
    rw [hdone]
  · exact ht
  · exact ht
  · exact List.forall_mem_append.mpr ⟨ht, List.forall_mem_singleton.mpr (hv.fit hmax v.houseId)⟩
  · exact List.forall_mem_append.mpr
      ⟨ht, List.forall_mem_singleton.mpr (hv.fit hmax (some houseId))⟩

/-- Effects that are no promotions keep units fit. -/
theorem fit_execute_of_ne {maxLevel : Int} (hmax : 0 ≤ maxLevel) (ht : t.game.Fit maxLevel)
    (hkind : a.effect.kind ≠ .known .addPromotionLevel) :
    (exec (a.execute r) t).2.game.Fit maxLevel := by
  rcases hknown : a.effect.kind with kind | word
  · rw [execute_of_known hknown]
    by_cases hunits : kind ∈ Part.units.changedBy
    · simp only [Part.changedBy, List.mem_cons, List.not_mem_nil, or_false] at hunits
      obtain rfl | rfl | rfl := hunits
      · exact a.fit_gainUnit r hmax ht
      · exact ht.of_subset (a.residents_removeUnit_subset r t)
      · exact absurd hknown hkind
    · -- All other kinds leave the units as they are.
      have hsame : Part.units.Same t (exec (a.executeKind r kind) t).2 := .executeKind hunits a r t
      have hresidents : (exec (a.executeKind r kind) t).2.game.residents = t.game.residents :=
        congrArg Prod.fst hsame
      exact ht.of_subset fun v hv => hresidents ▸ hv
  · rw [execute_of_unknown hknown]
    exact ht

/-- Every effect keeps units fit, whether or not it fails, unless it is a promotion that
oversteps. -/
theorem fit_execute_iff (hmax : 0 ≤ r.config.maxPromotionLevel)
    (ht : t.game.Fit r.config.maxPromotionLevel) :
    (exec (a.execute r) t).2.game.Fit r.config.maxPromotionLevel ↔ ¬ a.Oversteps r t := by
  by_cases hkind : a.effect.kind = .known .addPromotionLevel
  · rw [execute_of_known hkind]
    exact a.fit_addPromotionLevel_iff hmax ht hkind
  · exact iff_of_true (a.fit_execute_of_ne hmax ht hkind) fun h => hkind h.1

end Assignment

end Treasury
