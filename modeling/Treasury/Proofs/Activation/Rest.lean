import Treasury.Proofs.Activation.Failure
import Treasury.Proofs.Activation.Refusal
import Treasury.Proofs.Activation.Simulation

/-!
# Machines at rest

Between two calls of its host a machine should be at rest: idle, waiting for an answer, or done.
Then every call is answered, or refused for a reason that callers are told to expect. A machine that
a fault stops in the middle of an activation is not at rest.

* `Machine.EndsWell` is how a call should end, and `Machine.Blocked` says which calls come to an
  effect that cannot be measured or whose targets cannot be picked.
* `call_endsWell_iff`: a call of a quiet machine at rest ends well unless it is blocked.
* `calls_endWell_iff`: the calls of a host all end well unless one of them is blocked.
* `Machine.eq_of_call_refused`, `Machine.ready_of_call`: a call that is refused changes nothing, and
  one with an outcome leaves a machine that is ready where the outcome says.
-/

namespace Treasury

/-- A call that a host makes of the machine. -/
inductive HostCall where
  /-- Starts an activation. -/
  | start (groups : List Group) (source : Option Card)
  /-- Answers a request. -/
  | answer (a : Answer)
  deriving Inhabited

/-- Makes a call of a host, given how it tells the observers. -/
def Engine.make (tell : Tell) (r : Rules) : HostCall → Run Outcome
  | .start groups source => start tell r groups source
  | .answer (.pick ids) => resume tell r ids
  | .answer .pass => cancel tell r

namespace Machine

/-- Makes a call of the machine. -/
def call (r : Rules) (m : Machine) : HostCall → Except EngineError Outcome × Machine
  | .start groups source => m.run r fun tell => Engine.start tell r groups source
  | .answer a => m.answer r a

/-- Makes calls of the machine one after another, whether or not they fail. -/
def calls (r : Rules) : Machine → List HostCall → List (Except EngineError Outcome × Machine)
  | _, [] => []
  | m, c :: rest => m.call r c :: calls r (m.call r c).2 rest

/-- The machine after calls, whether or not they fail. -/
def afterCalls (r : Rules) (m : Machine) (cs : List HostCall) : Machine :=
  cs.foldl (fun m c => (m.call r c).2) m

theorem call_eq_make (r : Rules) (m : Machine) (c : HostCall) :
    m.call r c = exec (Engine.make (Engine.notify r m.depth) r c) m := by
  rcases c with _ | ⟨_ | _⟩
  · rfl
  · rfl
  · rfl

/-- A call ends with an outcome or is refused, and leaves the machine at rest. -/
def EndsWell (done : Except EngineError Outcome × Machine) : Prop :=
  (∀ e, done.1 = .error e → e.isRefusal = true) ∧ done.2.phase.isResting = true

/-- A call comes to an effect that cannot be measured or whose targets cannot be picked. -/
def Blocked (r : Rules) (m : Machine) : HostCall → Prop
  | .start groups source =>
    ¬ (m.isBusy = true ∧ r.config.policy = .reject) ∧
      Direct.ActivationFails r groups source [] m.table
  | .answer a =>
    m.phase = .awaitingTarget ∧
      Direct.InterpretationFails r m.source (m.preview.map (·.entry)) [a] m.results m.table

/-- No call of a list is blocked when it is made. -/
def Unblocked (r : Rules) : Machine → List HostCall → Prop
  | _, [] => True
  | m, c :: rest => ¬ m.Blocked r c ∧ Unblocked r (m.call r c).2 rest

/-- The machine is quiet and stands where a call may leave it. -/
structure Ready (r : Rules) (m : Machine) : Prop where
  /-- No observer calls the machine. -/
  quiet : m.Quiet
  /-- The machine waits for an answer, or nothing is in flight. -/
  settled : m.isBusy = false ∨ ∃ p, m.Waiting r p

end Machine

section

variable {r : Rules} {m : Machine}

/-- A machine that waits for targets is in flight. -/
theorem Machine.isBusy_of_awaiting (h : m.phase = .awaitingTarget) : m.isBusy = true := by
  rw [isBusy, h]
  rfl

theorem Machine.not_awaiting_of_free (h : m.isBusy = false) : m.phase ≠ .awaitingTarget :=
  fun hphase => Bool.noConfusion (h.symm.trans (isBusy_of_awaiting hphase))

/-- A machine that is ready and waits for targets waits for those of an effect. -/
theorem Machine.Ready.exists_waiting (h : m.Ready r) (hphase : m.phase = .awaitingTarget) :
    ∃ p, m.Waiting r p :=
  h.settled.resolve_left fun hfree => not_awaiting_of_free hfree hphase

/-- A machine that is ready is at rest. -/
theorem Machine.Ready.isResting (h : m.Ready r) : m.phase.isResting = true := by
  rcases h.settled with hfree | ⟨p, hw⟩
  · rw [isBusy] at hfree
    cases hphase : m.phase <;> rw [hphase] at hfree <;> first | rfl | cases hfree
  · rw [hw.phase_eq]
    rfl

/-- A call that follows the direct account ends well, ready for the next one, unless the account
fails. -/
theorem Follows.endsWell_iff {source : Option Card} {x : Play Progress} {t : Table}
    {done : Except EngineError Outcome × Machine} (h : Follows r source (exec x t) done) :
    (Machine.EndsWell done ↔ ¬ Fails x t) ∧ (¬ Fails x t → done.2.Ready r) := by
  obtain ⟨-, hquiet, h⟩ := h
  -- All accounts that do not fail end alike: without a bad error, and ready.
  have hgood : (∀ e, (exec x t).1 ≠ .error e) → (∀ e, done.1 = .error e → e.isRefusal = true) →
      done.2.Ready r →
        (Machine.EndsWell done ↔ ¬ Fails x t) ∧ (¬ Fails x t → done.2.Ready r) := by
    intro hok hrefusal hready
    have hnot : ¬ Fails x t := fun ⟨e, he⟩ => hok e he
    exact ⟨iff_of_true ⟨hrefusal, hready.isResting⟩ hnot, fun _ => hready⟩
  rcases hx : (exec x t).1 with f | (results | ⟨results, request, left⟩ | e | _) <;> rw [hx] at h
  · -- The fault got past the guard, and the machine is stuck where it was.
    obtain ⟨-, hstuck⟩ := h
    have hfails : Fails x t := ⟨f, hx⟩
    refine ⟨iff_of_false (fun hend => ?_) (not_not_intro hfails), fun hnot => absurd hfails hnot⟩
    rw [hend.2] at hstuck
    cases hstuck
  · obtain ⟨hdone, hphase⟩ := h
    refine hgood (by simp [hx]) (by simp [hdone]) ⟨hquiet, .inl ?_⟩
    rw [Machine.isBusy, hphase]
    rfl
  · obtain ⟨hdone, hw, -⟩ := h
    exact hgood (by simp [hx]) (by simp [hdone]) ⟨hquiet, .inr hw⟩
  · obtain ⟨hdone, hw⟩ := h
    exact hgood (by simp [hx]) (by simp [hdone, EngineError.isRefusal]) ⟨hquiet, .inr hw⟩
  · exact h.elim

/-- If the direct account of an activation finishes without an answer, the call that starts it
completes. -/
theorem call_start_of_finished (hq : m.Quiet) (hfree : m.isBusy = false) {groups : List Group}
    {source : Option Card} {results : ResultStack}
    (h : (exec (Direct.activate r groups source []) m.table).1 = .ok (.finished results)) :
    ∃ u, m.call r (.start groups source) =
      (.ok { phase := .completed, results := results.items, request := none, source }, u) := by
  obtain ⟨-, -, hstart⟩ := Engine.start_follows (Engine.discreet_of_quiet (r := r) hq) hq
    (fun hbusy => absurd hbusy (Bool.eq_false_iff.mp hfree)) groups source
  rw [h] at hstart
  exact ⟨_, Prod.ext hstart.1 rfl⟩

/-- An answer that nobody asked for changes nothing, and picking cards is refused then. -/
theorem answer_unasked (h : m.phase ≠ .awaitingTarget) (a : Answer) :
    m.call r (.answer a) =
      (match a with
        | .pick _ => .error .nothingPending
        | .pass => .ok m.outcome, m) := by
  cases a with
  | pick ids =>
    change exec (Engine.resume _ r ids) m = _
    unfold Engine.resume
    rw [exec_get_bind]
    cases m.request with
    | none => rfl
    -- A request that is left over is not answered while the machine does not wait.
    | some request => simp only [h, ne_eq, not_false_eq_true, if_true, exec_throw]
  | pass =>
    change exec (Engine.cancel _ r) m = _
    unfold Engine.cancel
    rw [exec_get_bind]
    simp only [h, ne_eq, not_false_eq_true, if_true]
    rfl

/-- A call of a machine that is ready ends well unless it is blocked, and leaves the machine ready
then. -/
theorem call_endsWell_iff (h : m.Ready r) (c : HostCall) :
    (Machine.EndsWell (m.call r c) ↔ ¬ m.Blocked r c) ∧
      (¬ m.Blocked r c → (m.call r c).2.Ready r) := by
  have hsame : (m.call r c).2 = m → (∀ e, (m.call r c).1 = .error e → e.isRefusal = true) →
      ¬ m.Blocked r c → (Machine.EndsWell (m.call r c) ↔ ¬ m.Blocked r c) ∧
        (¬ m.Blocked r c → (m.call r c).2.Ready r) := by
    intro hm hrefusal hnot
    have hready : (m.call r c).2.Ready r := by rwa [hm]
    exact ⟨iff_of_true ⟨hrefusal, hready.isResting⟩ hnot, fun _ => hready⟩
  cases c with
  | start groups source =>
    by_cases hreject : m.isBusy = true ∧ r.config.policy = .reject
    · have hdone : m.call r (.start groups source) = _ :=
        Engine.exec_start_refused _ hreject.1 hreject.2 groups source
      exact hsame (by rw [hdone]) (by simp [hdone, EngineError.isRefusal])
        fun hblocked => hblocked.1 hreject
    · have hfollows := Engine.start_follows (Engine.discreet_of_quiet (r := r) h.quiet) h.quiet
        (fun hbusy hpolicy => hreject ⟨hbusy, hpolicy⟩) groups source
      rw [Machine.Blocked, and_iff_right hreject, ← Direct.activate_fails_iff]
      exact hfollows.endsWell_iff
  | answer a =>
    rcases h.settled with hfree | ⟨p, hw⟩
    · -- Nobody asked, so nothing can go wrong.
      have hphase := Machine.not_awaiting_of_free hfree
      have hdone := answer_unasked (r := r) hphase a
      refine hsame (by rw [hdone]) ?_ fun hblocked => hphase hblocked.1
      cases a <;> simp [hdone, EngineError.isRefusal]
    · rw [Machine.Blocked, and_iff_right hw.phase_eq, ← Direct.interpret_fails_iff]
      exact (answer_follows h.quiet hw a).endsWell_iff

/-- The calls that a host makes of a machine whose observers only listen all end with an outcome or
a refusal and leave the machine at rest, unless one of them comes to an effect that cannot be
measured or whose targets cannot be picked. -/
theorem calls_endWell_iff (hquiet : m.Quiet) (hfree : m.isBusy = false) (cs : List HostCall) :
    (∀ done ∈ m.calls r cs, Machine.EndsWell done) ↔ m.Unblocked r cs := by
  have hready : m.Ready r := ⟨hquiet, .inl hfree⟩
  -- That the machine is ready is what every call of the induction hands on to the next.
  clear hquiet hfree
  induction cs generalizing m with
  | nil => exact ⟨fun _ => trivial, fun _ _ h => nomatch h⟩
  | cons c rest ih =>
    obtain ⟨hcall, hnext⟩ := call_endsWell_iff hready c
    rw [Machine.calls, Machine.Unblocked, List.forall_mem_cons, hcall]
    exact and_congr_right fun hfree => ih (hnext hfree)

end

/-- An activation that adds gold, and an answer that nobody asked for, end well. -/
theorem calls_endWell_of_gold :
    let m : Machine :=
      { table := { game := {}, dice := { twister := { words := #[], used := 0 } } } }
    ∀ done ∈ m.calls {} [.start [Group.always [.gold 5]] none, .answer (.pick ["copper#1"])],
      Machine.EndsWell done := by
  intro m
  have hquiet : m.Quiet := fun o ho => nomatch ho
  refine (calls_endWell_iff hquiet rfl _).mpr ⟨?_, ?_, trivial⟩
  · rintro ⟨-, hfails⟩
    rcases hfails with (⟨_, h, -⟩ | h) | (⟨h, -⟩ | ⟨_, h, -⟩ | h)
    all_goals cases h
  · rintro ⟨h, -⟩
    cases h

/-- Picking fewer than no cards at random stops the machine for good. -/
theorem not_endsWell_of_negative_count :
    let copper : Card := { serial := 1, instanceId := "copper#1", cardId := "copper" }
    let m : Machine :=
      { table := { game := { zones := { hand := [copper] } },
                   dice := { twister := { words := #[], used := 0 } } } }
    let groups := [Group.always [{ kind := .known .addGold, target := .random, maxTargets := -1 }]]
    ¬ ∀ done ∈ m.calls {} [.start groups none], Machine.EndsWell done := by
  intro copper m groups h
  have hend := h _ (List.mem_cons_self ..)
  exact Bool.false_ne_true (hend.1 (.fault .sampleSize) rfl)

/-! ## What a single call leaves -/

namespace Machine

variable {r : Rules} {m : Machine}

/-- A call of the machine that is refused leaves it as it was. -/
theorem eq_of_call_refused {c : HostCall} {e : EngineError} (he : (m.call r c).1 = .error e)
    (hrefusal : e.isRefusal = true) : (m.call r c).2 = m := by
  have ht := Engine.notify_tells (r := r) m.depth
  cases c with
  | start groups source => exact (Engine.start_reverts ht groups source m e he hrefusal).symm
  | answer a =>
    cases a with
    | pick ids => exact (Engine.resume_reverts ht ids m e he hrefusal).symm
    | pass => exact (Engine.cancel_reverts ht m e he hrefusal).symm

/-- What follows the direct account and has an outcome leaves a machine that is ready where the
outcome says. -/
theorem ready_of_follows {source : Option Card} {direct : Except Fault Progress × Table}
    {done : Except EngineError Outcome × Machine} {o : Outcome} (h : Follows r source direct done)
    (ho : done.1 = .ok o) : done.2.Ready r ∧ done.2.phase = o.phase := by
  obtain ⟨-, hquiet, hdone⟩ := h
  -- An outcome comes of a direct account that is finished or waits, and of no other.
  rcases hdirect : direct.1 with f | (results | ⟨results, request, left⟩ | e | _) <;>
    rw [hdirect] at hdone
  · cases ho.symm.trans hdone.1
  · cases ho.symm.trans hdone.1
    refine ⟨⟨hquiet, .inl ?_⟩, hdone.2⟩
    rw [isBusy, hdone.2]
    rfl
  · cases ho.symm.trans hdone.1
    exact ⟨⟨hquiet, .inr hdone.2.1⟩, rfl⟩
  · cases ho.symm.trans hdone.1
  · exact hdone.elim

/-- A call with an outcome leaves a machine that is ready where the outcome says. -/
theorem ready_of_call {c : HostCall} {o : Outcome} (h : m.Ready r)
    (ho : (m.call r c).1 = .ok o) :
    (m.call r c).2.Ready r ∧ (m.call r c).2.phase = o.phase := by
  cases c with
  | start groups source =>
    refine ready_of_follows (Engine.start_follows (Engine.discreet_of_quiet h.quiet) h.quiet
      (fun hbusy hreject => ?_) groups source) ho
    -- An outcome says that the activation was not refused.
    have hrefused : m.call r (.start groups source) = _ :=
      Engine.exec_start_refused _ hbusy hreject groups source
    rw [hrefused] at ho
    cases ho
  | answer a =>
    rcases h.settled with hfree | ⟨p, hw⟩
    · -- Nothing waits, so there is no request to answer.
      have hphase := not_awaiting_of_free hfree
      have hdone := answer_unasked (r := r) hphase a
      rw [hdone] at ho ⊢
      cases a with
      | pick ids => cases ho
      | pass =>
        cases ho
        exact ⟨h, rfl⟩
    · exact ready_of_follows (answer_follows h.quiet hw a) ho

end Machine

end Treasury
