import Treasury.Proofs.Execution.Promotion
import Treasury.Proofs.Session.Deeds

/-!
# Units stay fit

Along a run units stay fit, that is, with levels in range and with the combat power of their levels,
until a promotion oversteps. Promotions that only add levels never do, as long as the highest level
has a power.

* `Session.fit_iff_of_calls` is the statement for runs.
* `not_fit_of_demotion` is a run that takes a unit below the lowest level, and one that leaves it
  with the power of another level.
-/

namespace Treasury

open Numeric (limit)

namespace Session

variable {r : Rules}

/-- If all units are fit and the highest level is not below the lowest one, then, whatever the
calls, all units are fit after every effect that the calls carry out if and only if none of these
oversteps; and if none does, also at the end. None does where promotions only add levels, if the
highest level has a power. -/
theorem fit_iff_of_calls {s : Session} (hmax : 0 ≤ r.config.maxPromotionLevel)
    (hs : s.game.Fit r.config.maxPromotionLevel) (calls : List SessionCall) :
    let xs := s.executions r calls
    s.machine.table.Course r xs (s.afterAll r calls).machine.table ∧
      ((∀ x ∈ xs, (x.after r).game.Fit r.config.maxPromotionLevel) ↔
        ∀ x ∈ xs, ¬ x.assignment.Oversteps r x.before) ∧
      ((∀ x ∈ xs, ¬ x.assignment.Oversteps r x.before) →
        (s.afterAll r calls).game.Fit r.config.maxPromotionLevel) ∧
      (35 + 10 * r.config.maxPromotionLevel < limit →
        (∀ x ∈ xs, x.assignment.effect.kind = .known .addPromotionLevel →
          0 ≤ x.assignment.magnitude) →
        (∀ x ∈ xs, (x.after r).game.Fit r.config.maxPromotionLevel) ∧
          (s.afterAll r calls).game.Fit r.config.maxPromotionLevel) := by
  intro xs
  have hcourse := s.course_afterAll (r := r) calls
  have hstays : ∀ {u v : Table}, u.SameHousehold v → v.game.zones.cards ⊆ u.game.zones.cards →
      u.game.Fit r.config.maxPromotionLevel → v.game.Fit r.config.maxPromotionLevel :=
    fun hsame _ hu => hu.of_subset fun v hv => hsame.residents ▸ hv
  obtain ⟨hall, hend⟩ := hcourse.holds_iff (P := fun t => t.game.Fit r.config.maxPromotionLevel)
    (fun x => x.assignment.Oversteps r x.before) hstays
    (fun x _ hx => x.assignment.fit_execute_iff hmax hx) hs
  refine ⟨hcourse, hall, hend, fun hpower hadds => ?_⟩
  -- Here no effect is bad.
  obtain ⟨hgood, hlast⟩ :=
    hcourse.holds_iff (P := fun t => t.game.Fit r.config.maxPromotionLevel) (fun _ => False) hstays
      (fun x hmem hx => (x.assignment.fit_execute_iff hmax hx).trans <|
        iff_of_true (x.assignment.not_oversteps_of_nonneg hmax hpower hx (hadds x hmem)) not_false)
      hs
  exact ⟨hgood.mpr fun _ _ => not_false, hlast fun _ _ => not_false⟩

end Session

/-- A pawn is promoted by two levels in a session, and then by as many again, of which it makes
one. -/
theorem fit_of_promotion_of_pawn :
    let s : Session :=
      { id := "session-1", createdAt := .zero false, seed := none,
        machine := { table := {
          game := {
            residents := [{ unitId := "unit_1", name := "Unit", combatPower := 10 }]
            unitsMade := 1 }
          dice := { twister := { words := #[], used := 0 } } } } }
    let raise : SessionCall :=
      .start [Group.always [{ kind := .known .addPromotionLevel, value := 2 }]] none
    let calls : List SessionCall := [raise, raise]
    let last := s.afterAll {} calls
    s.game.Fit 3 ∧ (s.executions {} calls).map (·.assignment.magnitude) = [2, 2] ∧
      last.game.residents.map (fun u => (u.level, u.combatPower)) = [(3, 40)] ∧
      last.game.Fit 3 := by
  intro s raise calls last
  have hs : s.game.Fit 3 := by decide +kernel
  obtain ⟨-, -, -, hadds⟩ := Session.fit_iff_of_calls (r := {}) (by decide) hs calls
  have hpositive : ∀ x ∈ s.executions {} calls,
      x.assignment.effect.kind = .known .addPromotionLevel → 0 ≤ x.assignment.magnitude := by
    decide +kernel
  have hfit := (hadds (by decide +kernel) hpositive).2
  exact ⟨hs, by decide +kernel, by decide +kernel, hfit⟩

/-- A pawn of the lowest level loses a level, and comes below that level. Where the highest level
has no power, a pawn that is raised to it keeps the power that it had. -/
theorem not_fit_of_demotion :
    let s : Session :=
      { id := "session-1", createdAt := .zero false, seed := none,
        machine := { table := {
          game := {
            residents := [{ unitId := "unit_1", name := "Unit", combatPower := 10 }]
            unitsMade := 1 }
          dice := { twister := { words := #[], used := 0 } } } } }
    let raise (levels : Int) : List SessionCall :=
      [.start [Group.always [{ kind := .known .addPromotionLevel, value := levels }]] none]
    let highest : Int := Numeric.tenTo 310
    let lofty : Rules := { config := { maxPromotionLevel := highest } }
    s.game.Fit 3 ∧
      (s.afterAll {} (raise (-1))).game.residents.map (fun u => (u.level, u.combatPower)) =
        [(-1, 0)] ∧
      ¬ (s.afterAll {} (raise (-1))).game.Fit 3 ∧
      (s.afterAll lofty (raise highest)).game.residents.map
        (fun u => (u.level, u.combatPower)) = [(highest, 10)] ∧
      ¬ (s.afterAll lofty (raise highest)).game.Fit highest := by
  intro s raise highest lofty
  refine ⟨?_, ?_, ?_, ?_, ?_⟩
  · decide +kernel
  · decide +kernel
  · decide +kernel
  · decide +kernel
  · decide +kernel

end Treasury
