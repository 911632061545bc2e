import Treasury.Proofs.Activation.Ledger
import Treasury.Proofs.Execution.Scheduling

/-!
# The schedule of an activation

An activation leaves the records for later turns as they are and adds one for each effect that
writes one, in the order in which the effects are carried out. Effects that are passed over or
cancelled add none.

* `Scene.Step.schedules` is what one step does to the records, and `Scene.Path.schedules` is what a
  history does.
* `scheduled_of_completed` is the statement for the activations that complete in the calls of a host
  and in what is done inside them.
-/

namespace Treasury

open Deed (queuedIn settledIn executionsIn)

namespace Deed

/-- The effects that were carried out in a history, each as it was assigned. -/
def assignmentsIn (h : List Deed) : List Assignment := (executionsIn h).map (·.assignment)

@[simp]
theorem assignmentsIn_append (h k : List Deed) :
    assignmentsIn (h ++ k) = assignmentsIn h ++ assignmentsIn k := by
  simp only [assignmentsIn, executionsIn_append, List.map_append]

end Deed

open Deed (assignmentsIn)

namespace Scene

variable {r : Rules} {s s' : Scene}

/-- At each step, the effect that is carried out adds its record, if it writes one, and nothing else
is done to the records. -/
theorem Step.schedules {d : Option Deed} (hstep : Step r s d s') :
    s.machine.table.Schedules (assignmentsIn d.toList) s'.machine.table := by
  cases hstep with
  | rolled m opening hrolled => exact .of_rolled hrolled
  | named m opening id =>
    obtain ⟨n, hn⟩ := m.table.game.exists_snd_cardNamed id
    exact .of_same (by rw [hn]; rfl) (by rw [hn]; rfl)
  | carriedOut m hcurrent hfetched hmagnitude hy =>
    -- Before the effect, dice are thrown for its targets and for its magnitude.
    subst hy
    exact (Table.Schedules.of_rolled (hfetched.rolled_magnitude hmagnitude)).trans
      (Assignment.schedules_execute _ r _)
  | faulted m hcurrent hfetched hmagnitude =>
    exact .of_rolled (hfetched.rolled_magnitude hmagnitude)
  | _ => exact .of_same rfl rfl

/-- In a history, the effects that are carried out add their records. -/
theorem Path.schedules {h : List Deed} (hpath : Path r s h s') :
    s.machine.table.Schedules (assignmentsIn h) s'.machine.table := by
  induction hpath with
  | refl => exact .of_same rfl rfl
  | snoc _ hstep ih =>
    rw [Deed.assignmentsIn_append]
    exact ih.trans hstep.schedules

end Scene

/-- Whatever calls a host makes, and whatever calls observers make inside them, their deeds are
known. When an activation completes, all that it queued was carried out or passed over, and the
records for later turns are those that there were when it began, and then one for each effect of it
that was carried out and is of a kind that writes one, in this order. Each has the magnitude that
counts and is for one turn at least, and the ids are none that the game made before and differ from
one another. -/
theorem scheduled_of_completed (r : Rules) (m : Machine) (cs : List HostCall) :
    m.DoesAll r cs (m.deeds r cs) ∧
      ∀ earlier groups source before since o after later,
        m.deeds r cs =
            earlier ++ .began groups source before :: (since ++ .completed o after :: later) →
          (∀ d ∈ since, d.isBegan = false) →
            queuedIn since = (settledIn since).map (·.1) ∧ (∀ d ∈ since, d.Authoritative r) ∧
            ∃ records, records = Assignment.records before.game.effectsMade (assignmentsIn since) ∧
              after.game.scheduled = before.game.scheduled ++ records ∧
              (∀ s ∈ records, 1 ≤ s.remainingTurns ∧ ¬ before.game.Issued s.effectId ∧
                after.game.Issued s.effectId) ∧
              (records.map (·.effectId)).Nodup := by
  refine ⟨m.doesAll_deeds cs, ?_⟩
  intro earlier groups source before since o after later hdeeds hsince
  obtain ⟨s₁, s₂, hwork, rfl, rfl, hqueued, -⟩ :=
    (Machine.path_of_deeds_eq hdeeds).exists_of_completed hsince
  have hschedules := hwork.schedules
  refine ⟨hqueued, hwork.forall_label Scene.Step.authoritative, _, rfl, hschedules.scheduled_eq,
    fun s hs => ⟨?_, hschedules.issued hs⟩, ?_⟩
  · exact Assignment.one_le_remainingTurns_of_mem_records hs
  · exact Assignment.nodup_map_effectId_records _ _

/-- An activation of three effects, of which the second finds nothing to pick, adds two records to
the one that there was. -/
theorem scheduled_of_completed_of_three :
    let old : Scheduled :=
      { effectId := "effect_4", kind := .delayedGold, value := 3, remainingTurns := 1 }
    let m : Machine := { table := { game := { scheduled := [old], effectsMade := 4 },
                                    dice := { twister := { words := #[], used := 0 } } } }
    let wages : Effect := { kind := .known .persistentGold, value := 5, duration := 2 }
    let gift : Effect := { kind := .known .delayedGold, target := .handCard, value := 9 }
    let upkeep : Effect := { kind := .known .maintenanceModifier, value := 2 }
    let groups := [Group.always [wages, gift, upkeep]]
    let cs := [HostCall.start groups none]
    let last := m.afterCalls {} cs
    ∃ since o,
      m.deeds {} cs = .began groups none m.table :: (since ++ [.completed o last.table]) ∧
      (assignmentsIn since).map (·.effect) = [wages, upkeep] ∧
      last.table.game.scheduled =
        [old, { effectId := "effect_5", kind := .goldPerTurn, value := 5, remainingTurns := 2 },
          { effectId := "effect_6", kind := .maintenanceIncrease, value := 2,
            remainingTurns := 3 }] ∧
      ¬ m.table.game.Issued "effect_5" ∧ ¬ m.table.game.Issued "effect_6" := by
  intro old m wages gift upkeep groups cs last
  let pending (e : Effect) : Pending := { effect := e, speculative := e.value, source := none }
  let first : Execution := ⟨{ effect := wages, magnitude := 5 }, m.table⟩
  let failed : ResultStack := { items := [first.result {}, .failed (.known .delayedGold)] }
  let second : Execution :=
    ⟨{ effect := upkeep, magnitude := 2, results := failed }, first.after {}⟩
  let since : List Deed :=
    [.queued [pending wages, pending gift, pending upkeep] m.table.game,
      .carriedOut (pending wages) (m.handover (pending wages) []) first (first.after {})
        (first.result {}),
      .passedOver (pending gift),
      .carriedOut (pending upkeep)
        ({ m with table := first.after {} }.handover (pending upkeep) []) second (second.after {})
        (second.result {})]
  let o : Outcome :=
    { phase := .completed, results := failed.items ++ [second.result {}], request := none,
      source := none }
  have hdeeds : m.deeds {} cs =
      .began groups none m.table :: (since ++ [.completed o last.table]) := by decide +kernel
  obtain ⟨-, -, records, hnew, hscheduled, hrecords, -⟩ :=
    (scheduled_of_completed {} m cs).2 [] groups none m.table since o last.table [] hdeeds
      (by decide)
  have hwritten : records =
      [{ effectId := "effect_5", kind := .goldPerTurn, value := 5, remainingTurns := 2 },
        { effectId := "effect_6", kind := .maintenanceIncrease, value := 2,
          remainingTurns := 3 }] :=
    hnew.trans (by decide +kernel)
  rw [hwritten] at hscheduled hrecords
  refine ⟨since, o, hdeeds, by decide, hscheduled, ?_, ?_⟩
  · exact (hrecords _ List.mem_cons_self).2.1
  · exact (hrecords _ (List.mem_cons_of_mem _ List.mem_cons_self)).2.1

end Treasury
