import Treasury.Proofs.Activation.Callbacks
import Treasury.Proofs.Activation.Reentry
import Treasury.Proofs.Activation.Selection

/-!
# Cancelling without a request

A request is cancelled together with the effect that asked for it. Whether there is one is told by
the phase alone, which follows a little later than the request itself: an activation that overtakes
one that waits, and an effect that is cancelled, leave the phase as it was until their observers are
told. Whoever cancels from there finds no effect in work.

* `Machine.Stands`: how a machine stands wherever it may be called.
* `Engine.Ends` and `Engine.Behaves`: a call tells its observers only where the machine stands so,
  and leaves it so. They are proved for each call as long as telling is `Engine.Considerate`.
* `Engine.notify_considerate` closes the circle, and `Machine.Place.stands` follows.
* `Machine.Place.exec_cancel_of_request_eq_none`: what cancelling does without a request.
* `Machine.Place.overtaken` and `Machine.Place.passedOver`: who starts another activation while one
  waits, or cancels the request, comes to a place where it fails.
-/

namespace Treasury

/-- The events that observers may be told of while the machine still seems to wait, though its
request is gone: the start of an activation, which may overtake one that waited, and the failure of
an effect that was cancelled or passed over. -/
def Event.Lags : Event → Prop
  | .started _ => True
  | .executed kind _ result => result = .failed kind
  | _ => False

namespace Machine

/-- A machine with a request waits for targets, and has the effect that asked in work. -/
def Composed (m : Machine) : Prop :=
  m.request.isSome = true → m.phase = .awaitingTarget ∧ m.current.isSome = true

/-- How a machine stands that a call finds. It is composed, and if it seems to wait without a
request, no effect is in work, and observers are being told of an event that may lag. -/
structure Stands (o : Option Event) (m : Machine) : Prop where
  /-- The machine is composed. -/
  composed : m.Composed
  /-- Without a request it may seem to wait for a moment. -/
  bare : m.phase = .awaitingTarget → m.request = none → m.current = none ∧ ∃ e ∈ o, e.Lags

/-- Two machines are at the same point of the same activation. -/
structure Alike (m m' : Machine) : Prop where
  phase_eq : m'.phase = m.phase
  request_eq : m'.request = m.request
  current_eq : m'.current = m.current
  activation_eq : m'.activation = m.activation

/-- What comes of a machine that is composed: it is left where it is, or it stands as it should
between two calls. -/
def Moves (m m' : Machine) : Prop := m.Composed → Alike m m' ∨ m'.Stands none

variable {o : Option Event} {m m' : Machine}

/-- A machine that stands as it should between two calls does so at all times. -/
theorem Stands.mono (h : m.Stands none) : m.Stands o where
  composed := h.composed
  bare hphase hrequest := by
    obtain ⟨-, e, he, -⟩ := h.bare hphase hrequest
    cases he

/-- A machine that has left the phase of the request, and the request, stands as it should. -/
theorem stands_of_phase_ne (hphase : m.phase ≠ .awaitingTarget) (hrequest : m.request = none) :
    m.Stands none where
  composed hsome := by
    rw [hrequest] at hsome
    cases hsome
  bare h := absurd h hphase

theorem Alike.composed (h : Alike m m') (hm : m.Composed) : m'.Composed := by
  unfold Composed
  rw [h.phase_eq, h.request_eq, h.current_eq]
  exact hm

theorem Alike.stands (h : Alike m m') (hm : m.Stands o) : m'.Stands o where
  composed := h.composed hm.composed
  bare := by
    rw [h.phase_eq, h.request_eq, h.current_eq]
    exact hm.bare

theorem Stands.of_moves (h : m.Stands o) (hmoves : Moves m m') : m'.Stands o := by
  rcases hmoves h.composed with halike | hstands
  · exact halike.stands h
  · exact hstands.mono

theorem alike_of_aside (m : Machine) (t : Table) (observers : List Observer) (record : List Event)
    (reports : List Report) : Alike m { m with table := t, observers, record, reports } :=
  ⟨rfl, rfl, rfl, rfl⟩

instance : IsPreorder Machine Moves where
  refl _ _ := .inl ⟨rfl, rfl, rfl, rfl⟩
  trans m m' m'' h k hm := by
    rcases h hm with halike | hstands
    · refine (k (halike.composed hm)).imp_left fun halike' => ?_
      exact ⟨halike'.phase_eq.trans halike.phase_eq, halike'.request_eq.trans halike.request_eq,
        halike'.current_eq.trans halike.current_eq,
        halike'.activation_eq.trans halike.activation_eq⟩
    · exact .inr (hstands.of_moves k)

end Machine

namespace Engine

open Machine (Moves Alike Freed)

/-- What telling observers may come to: they do not fail, they leave the activation alone or let
another one overtake it, and they leave the machine at a point where it may be called. -/
structure Considerate (tell : Tell) : Prop where
  tells : Tells tell
  frees : ∀ e m, m.current = none → m.request = none → Freed m (exec (tell e) m).2
  moves : ∀ e, Keeps Moves (tell e)

/-- A call tells its observers only where the machine stands as it should while they are told, and
leaves it as it should stand between two calls. -/
structure Ends {α : Type} (call : Tell → Run α) (tell : Tell) (m : Machine) : Prop where
  tells : TellsWhere (fun e u => u.Stands (some e)) call tell m
  stands : (exec (call tell) m).2.Stands none

/-- A call tells the observers of a composed machine only where the machine stands as it should
while they are told, and it moves the machine as telling observers may. -/
structure Behaves {α : Type} (call : Tell → Run α) (tell : Tell) (m : Machine) : Prop where
  tells : m.Composed → TellsWhere (fun e u => u.Stands (some e)) call tell m
  moves : Moves m (exec (call tell) m).2

variable {r : Rules} {tell : Tell} {m u : Machine} {n : Nat} {p : Pending} {α : Type}

theorem Ends.of_eq {call call' : Tell → Run α} (h : Ends call' tell u)
    (heq : ∀ tell, exec (call tell) m = exec (call' tell) u) : Ends call tell m where
  tells := h.tells.of_eq heq
  stands := by
    rw [heq]
    exact h.stands

theorem Ends.of_exec {call : Tell → Run α} {answer : Except EngineError α}
    (h : ∀ tell, exec (call tell) m = (answer, u)) (hu : u.Stands none) : Ends call tell m where
  tells := .of_exec h
  stands := by
    rw [h]
    exact hu

theorem Ends.told_bind (ht : Considerate tell) {e : Event} {next : Tell → Run α}
    (hu : u.Stands (some e))
    (hnext : ∀ w, exec (tell e) u = (.ok (), w) → Ends next tell w) :
    Ends (fun tell => tell e >>= fun _ => next tell) tell u where
  tells := .told_bind hu fun w hdone => (hnext w hdone).tells
  stands := by
    rw [exec_bind]
    rcases hdone : exec (tell e) u with ⟨x | ⟨⟩, w⟩
    · exact (ht.tells e u x (congrArg Prod.fst hdone)).elim
    · exact (hnext w hdone).stands

/-- Observers are told, and then the call only answers. -/
theorem Ends.told_last (ht : Considerate tell) {e : Event} {answer : Run α} (hu : u.Stands none)
    (hfixed : ∀ w, (exec answer w).2 = w) :
    Ends (fun tell => tell e >>= fun _ => answer) tell u := by
  refine .told_bind ht hu.mono fun w hdone => ?_
  have hmoves := ht.moves e u
  rw [hdone] at hmoves
  have hanswered : exec answer w = ((exec answer w).1, w) := Prod.ext rfl (hfixed w)
  exact .of_exec (fun _ => hanswered) (hu.of_moves hmoves)

/-- Once observers are told, the call goes on if the activation is still the same, with no effect in
work and no request; else it has nothing more to do. -/
theorem Ends.told_while (ht : Considerate tell) {e : Event} {next : Machine → Tell → Run Outcome}
    (hact : u.activation = n) (hu : u.Stands (some e)) (hcurrent : u.current = none)
    (hrequest : u.request = none)
    (hnext : ∀ w, w.activation = n → w.current = none → w.request = none →
      Ends (next w) tell w) :
    Ends (fun tell => tell e >>= fun _ => do
      let w ← get
      if w.activation = n then next w tell else outcome) tell u := by
  refine .told_bind ht hu fun w hdone => ?_
  have hfreed := ht.frees e u hcurrent hrequest
  have hmoves := ht.moves e u
  rw [hdone] at hfreed hmoves
  by_cases hsame : w.activation = n
  · -- Observers that overtake an activation change its number, so this one was left alone.
    obtain ⟨-, hcurrent', hrequest'⟩ := hfreed (hsame.trans hact.symm)
    refine (hnext w hsame hcurrent' hrequest').of_eq fun tell => ?_
    rw [exec_get_bind, if_pos hsame]
  · -- Who changed the number made a whole call, which leaves no trace of a request that is gone.
    have hdone (tell : Tell) : exec (do
        let w ← get
        if w.activation = n then next w tell else outcome) w = (.ok w.outcome, w) := by
      rw [exec_get_bind, if_neg hsame]
      rfl
    exact .of_exec hdone ((hmoves hu.composed).resolve_left fun halike =>
      hsame (halike.activation_eq.trans hact))

theorem Behaves.of_ends {call : Tell → Run α} (h : Ends call tell m) : Behaves call tell m where
  tells _ := h.tells
  moves _ := .inr h.stands

/-- A call that changes nothing behaves. -/
theorem Behaves.of_fixed {call : Tell → Run α} {done : Except EngineError α × Machine}
    (h : ∀ tell, exec (call tell) m = done) (hdone : done.2 = m) : Behaves call tell m where
  tells _ := .of_exec h
  moves := by
    rw [h, hdone]
    exact Std.Refl.refl m

theorem Behaves.of_composed {call : Tell → Run α} (h : m.Composed → Behaves call tell m) :
    Behaves call tell m where
  tells hm := (h hm).tells hm
  moves hm := (h hm).moves hm

/-! ## Calls -/

section Calls

variable (ht : Considerate tell)

include ht

/-- Carrying an effect out and going on. -/
theorem dispatch_ends (next : Machine → Tell → Run Outcome) (p : Pending) (targets : List Card)
    (hact : m.activation = n) (hrequest : m.request = none)
    (hnext : ∀ w, w.activation = n → w.current = none → w.request = none →
      Ends (next w) tell w) :
    Ends (fun tell => dispatch tell r p targets >>= fun _ => do
      let w ← get
      if w.activation = n then next w tell else outcome) tell m := by
  have hexec := fun tell => exec_dispatch_bind (m := m) (p := p) (r := r) tell targets fun _ => do
    let w ← get
    if w.activation = n then next w tell else outcome
  rcases hdone : exec (p.carriedOut r targets m.results) m.table
    with ⟨f | ⟨magnitude, result⟩, t⟩ <;> simp only [hdone] at hexec
  · -- A fault ends the call before anyone is told.
    exact .of_exec hexec (Machine.stands_of_phase_ne (fun h => nomatch h) hrequest)
  · let carried : Machine := { m with
      phase := .dispatching, table := t, results := m.results.push result, current := none }
    have hstands : carried.Stands none :=
      Machine.stands_of_phase_ne (fun h => nomatch h) hrequest
    exact (Ends.told_while (u := carried) (e := .executed p.effect.kind magnitude result) ht hact
      hstands.mono rfl hrequest hnext).of_eq hexec

/-- Passing an effect over and going on. The machine may still seem to wait for targets. -/
theorem passOver_ends (next : Machine → Tell → Run Outcome) (p : Pending) (magnitude : Int)
    (hact : m.activation = n) (hrequest : m.request = none)
    (hnext : ∀ w, w.activation = n → w.current = none → w.request = none →
      Ends (next w) tell w) :
    Ends (fun tell => complete tell p (.failed p.effect.kind) magnitude >>= fun _ => do
      let w ← get
      if w.activation = n then next w tell else outcome) tell m := by
  let passed : Machine :=
    { m with results := m.results.push (.failed p.effect.kind), current := none }
  have hstands : passed.Stands
      (some (.executed p.effect.kind magnitude (.failed p.effect.kind))) := by
    refine ⟨fun hsome => ?_, fun _ _ => ⟨rfl, _, rfl, rfl⟩⟩
    rw [hrequest] at hsome
    cases hsome
  exact (Ends.told_while (u := passed) ht hact hstands rfl hrequest hnext).of_eq fun tell => rfl

/-- Working the queue off. -/
theorem drain_ends (queue : List Pending) (hact : m.activation = n) (hcurrent : m.current = none)
    (hrequest : m.request = none) : Ends (fun tell => drain tell r n queue) tell m := by
  induction queue generalizing m with
  | nil =>
    let done : Machine := { m with phase := .completed }
    let cleared : Machine :=
      { done with queue := [], results := {}, current := none, source := none }
    have hstands : cleared.Stands none :=
      Machine.stands_of_phase_ne (fun h => nomatch h) hrequest
    have htold : Ends (fun tell => tell (.completed m.source) >>= fun _ => pure done.outcome) tell
        cleared := .told_last ht hstands fun _ => rfl
    exact htold.of_eq fun tell => rfl
  | cons p rest ih =>
    let taken : Machine := { m with queue := rest, current := some p }
    let next : Machine → Tell → Run Outcome := fun _ tell => drain tell r n rest
    have hgo : ∀ w : Machine, w.activation = n → w.current = none → w.request = none →
        Ends (next w) tell w := fun w => ih
    by_cases hsel : p.effect.target.needsSelection = true
    · by_cases hnone : (p.effect.selectable r m.table.game).isEmpty = true
      · have hpassed := passOver_ends (m := taken) ht next p p.speculative hact hrequest hgo
        exact hpassed.of_eq fun tell => exec_drain_nothing tell hsel hnone
      · have hsome := Bool.eq_false_iff.mpr hnone
        by_cases hauto : r.config.autoSelect = true
        · have hpicked := dispatch_ends (r := r) (m := taken) ht next p
            ((p.effect.selectable r m.table.game).take
              (p.effect.request (p.effect.selectable r m.table.game)).maxSelections.toNat)
            hact hrequest hgo
          exact hpicked.of_eq fun tell => exec_drain_picked tell hsel hsome hauto
        · -- The machine waits, and still does so once observers are told if they let it be.
          let q := p.effect.request (p.effect.selectable r m.table.game)
          let asked : Machine := { taken with phase := .awaitingTarget, request := some q }
          have hstands : asked.Stands none := ⟨fun _ => ⟨rfl, rfl⟩, fun _ h => nomatch h⟩
          have htold : Ends (fun tell => tell (.targetRequired q) >>= fun _ => outcome) tell
              asked := .told_last ht hstands fun _ => rfl
          exact htold.of_eq fun tell =>
            exec_drain_asked tell hsel hsome (Bool.eq_false_iff.mpr hauto)
    · have hexec (tell : Tell) : exec (drain tell r n (p :: rest)) m = _ :=
        exec_drain_collected tell (Bool.eq_false_iff.mpr hsel)
      rcases hdone : exec (p.effect.autoTargets r p.source) m.table with ⟨f | targets, t⟩ <;>
        simp only [hdone] at hexec
      · exact .of_exec hexec (Machine.stands_of_phase_ne (fun h => nomatch h) hrequest)
      · exact (dispatch_ends (m := { taken with phase := .autoTargeting, table := t }) ht
          next p targets hact hrequest hgo).of_eq hexec

/-- What is left of the queue is worked off. -/
theorem proceed_ends (hact : m.activation = n) (hcurrent : m.current = none)
    (hrequest : m.request = none) : Ends (fun tell => proceed tell r n) tell m :=
  (drain_ends ht m.queue hact hcurrent hrequest).of_eq fun tell => exec_goOn tell hact m.queue

/-- The effects of an activation that has begun are queued and worked off. -/
theorem expand_ends (groups : List Group) (source : Option Card) (hact : m.activation = n)
    (hcurrent : m.current = none) (hrequest : m.request = none) :
    Ends (fun tell => do
      modify fun m => { m with phase := .expanding }
      expand r source groups
      proceed tell r n) tell m := by
  obtain ⟨t, entries, -, hstate, -⟩ :=
    expand_queues (r := r) source groups { m with phase := .expanding }
  have hexec (tell : Tell) : exec (do
      modify fun m => { m with phase := .expanding }
      expand r source groups
      proceed tell r n) m =
        match exec (expand r source groups) { m with phase := .expanding } with
        | (.error e, u) => (.error e, u)
        | (.ok _, u) => exec (proceed tell r n) u := by
    rw [exec_modify_bind, exec_bind]
    rcases exec (expand r source groups) { m with phase := .expanding } with ⟨e | a, u⟩
    · rfl
    · rfl
  -- Expanding tells nobody, so only what comes after it is left.
  rcases hdone : exec (expand r source groups) { m with phase := .expanding } with ⟨e | a, u⟩ <;>
    rw [hdone] at hstate <;> simp only [hdone] at hexec <;> obtain rfl : u = _ := hstate
  · exact .of_exec hexec (Machine.stands_of_phase_ne (fun h => nomatch h) hrequest)
  · exact (proceed_ends (m := { m with
      phase := .expanding, table := t, queue := m.queue ++ entries }) ht hact hcurrent
      hrequest).of_eq hexec

/-- An activation is started, or refused. -/
theorem start_behaves (groups : List Group) (source : Option Card) :
    Behaves (fun tell => start tell r groups source) tell m := by
  by_cases hrefused : m.isBusy = true ∧ r.config.policy = .reject
  · exact .of_fixed
      (fun tell => exec_start_refused tell hrefused.1 hrefused.2 groups source) rfl
  · -- The phase is still that of before, so the machine may seem to wait.
    let begun : Machine := { m with
      activation := m.activation + 1, queue := [], results := {}, current := none, request := none,
      source }
    have hstands : begun.Stands (some (.started source)) :=
      ⟨fun hsome => (nomatch hsome), fun _ _ => ⟨rfl, _, rfl, trivial⟩⟩
    have htold : Ends (fun tell => tell (.started source) >>= fun _ => do
        let w ← get
        if w.activation = m.activation + 1 then do
          modify fun m => { m with phase := .expanding }
          expand r source groups
          proceed tell r (m.activation + 1)
        else outcome) tell begun :=
      .told_while ht rfl hstands rfl rfl fun _ hact hcurrent hrequest =>
        expand_ends ht groups source hact hcurrent hrequest
    exact .of_ends (htold.of_eq fun tell =>
      exec_start_begun tell (not_and.mp hrefused) groups source)

/-- A selection is taken or refused. The effect that asked for it is in work. -/
theorem resume_behaves (ids : List String) :
    Behaves (fun tell => resume tell r ids) tell m := by
  rcases hrequest : m.request with _ | q
  · exact .of_fixed (fun tell => exec_resume_of_request_eq_none tell hrequest ids) rfl
  · refine .of_composed fun hm => ?_
    obtain ⟨hphase, hcurrent⟩ := hm (Option.isSome_of_eq_some hrequest)
    obtain ⟨p, hcurrent⟩ := Option.isSome_iff_exists.mp hcurrent
    rcases hids : selected q ids with error | targets
    · exact .of_fixed (fun tell => exec_resume_refused tell hphase hrequest hids) rfl
    · -- Only an answer that is accepted comes as far as telling anyone.
      have hdispatched : Ends (fun tell => dispatch tell r p targets >>= fun _ =>
          proceed tell r m.activation) tell { m with request := none } :=
        dispatch_ends ht (fun w tell => drain tell r m.activation w.queue) p targets rfl rfl
          fun w hact hcurrent hrequest => drain_ends ht w.queue hact hcurrent hrequest
      exact .of_ends (hdispatched.of_eq fun tell => exec_resume tell hphase hcurrent hrequest hids)

/-- A request is cancelled, if there is one. -/
theorem cancel_behaves : Behaves (fun tell => cancel tell r) tell m := by
  by_cases hphase : m.phase = .awaitingTarget
  · rcases hcurrent : m.current with _ | p
    · -- Without an effect in work there is no request that could be closed.
      refine .of_composed fun hm => .of_fixed
        (fun tell => exec_cancel_of_no_effect tell hphase hcurrent) ?_
      have hrequest : m.request = none := by
        rcases hrequest : m.request with _ | q
        · rfl
        · have hsome := (hm (Option.isSome_of_eq_some hrequest)).2
          rw [hcurrent] at hsome
          cases hsome
      change { m with request := none } = m
      rw [← hrequest]
    · have hpassed : Ends (fun tell => complete tell p (.failed p.effect.kind) p.speculative >>=
          fun _ => proceed tell r m.activation) tell { m with request := none } :=
        passOver_ends ht (fun w tell => drain tell r m.activation w.queue) p p.speculative
          rfl rfl fun w hact hcurrent hrequest => drain_ends ht w.queue hact hcurrent hrequest
      exact .of_ends (hpassed.of_eq fun tell => exec_cancel tell hphase hcurrent)
  · exact .of_fixed (fun tell => exec_cancel_of_phase_ne tell hphase) rfl

theorem make_behaves (c : HostCall) : Behaves (fun tell => make tell r c) tell m := by
  cases c with
  | start groups source => exact start_behaves ht groups source
  | answer a =>
    cases a with
    | pick ids => exact resume_behaves ht ids
    | pass => exact cancel_behaves ht

end Calls

/-- However deep notifications are nested, they leave the machine at a point where it may be
called. -/
theorem notify_considerate (depth : Nat) : Considerate (notify r depth) := by
  have hneglects : NeglectsObservers Moves :=
    fun m _ _ _ _ => .inl (Machine.alike_of_aside m m.table _ _ _)
  refine ⟨notify_tells depth, fun e m => notify_frees r depth e,
    keeps_notify hneglects (fun depth ih => ?_) depth⟩
  have ht : Considerate (notify r depth) :=
    ⟨notify_tells depth, fun e m => notify_frees r depth e, ih⟩
  exact keeps_perform (R := Moves)
    (fun m _ _ => .inl (Machine.alike_of_aside m _ m.observers m.record m.reports))
    (fun groups source _ => (start_behaves ht groups source).moves)
    (fun ids _ => (resume_behaves ht ids).moves) (fun _ => (cancel_behaves ht).moves)

end Engine

namespace Machine.Place

variable {r : Rules} {o : Option Event} {m : Machine}

/-- Wherever the machine is called, it stands as it should. -/
theorem stands (h : Place r o m) : m.Stands o := by
  induction h with
  | opening hphase hcurrent hrequest =>
    exact stands_of_phase_ne (fun h => nomatch hphase.symm.trans h) hrequest
  | changed t observers record reports _ ih =>
    exact (alike_of_aside _ t observers record reports).stands ih
  | called depth c _ ih =>
    exact ih.of_moves (Engine.make_behaves (Engine.notify_considerate depth) c).moves
  | told depth c _ hcomes ih =>
    exact ((Engine.make_behaves (Engine.notify_considerate depth) c).tells ih.composed).of_comesTo
      hcomes

/-- Without a request, cancelling changes nothing, and is answered by where the activation stands
unless the machine still seems to wait. It never does between two calls of its host, but only while
observers are told that an activation has started, or that an effect has failed. -/
theorem exec_cancel_of_request_eq_none (h : Place r o m) (hrequest : m.request = none) :
    (∀ tell, exec (Engine.cancel tell r) m =
      (if m.phase = .awaitingTarget then .error .noCurrentEffect else .ok m.outcome, m)) ∧
    (m.phase = .awaitingTarget → ∃ e ∈ o, e.Lags) := by
  constructor
  · intro tell
    split
    · next hphase =>
      rw [Engine.exec_cancel_of_no_effect tell hphase (h.stands.bare hphase hrequest).1, ← hrequest]
    · next hphase => exact Engine.exec_cancel_of_phase_ne tell hphase
  · exact fun hphase => (h.stands.bare hphase hrequest).2

/-- Starting an activation in place of one that waits comes to a place where cancelling would
fail. -/
theorem overtaken (h : Place r o m) (hfree : m.isBusy = true → r.config.policy ≠ .reject)
    (groups : List Group) (source : Option Card) :
    Place r (some (.started source))
      { m with activation := m.activation + 1, queue := [], results := {}, current := none,
               request := none, source } := by
  refine h.told 0 (.start groups source) fun x tell hfails => ?_
  change exec (Engine.start tell r groups source) m = _
  rw [Engine.exec_start_begun tell hfree, exec_bind, hfails.fails]

/-- Cancelling a request comes to a place where cancelling once more would fail. -/
theorem passedOver {p : Pending} {q : TargetRequest} (h : Place r o m) (hm : m.Suspended p q) :
    Place r (some (.executed p.effect.kind p.speculative (.failed p.effect.kind)))
      { m with request := none, results := m.results.push (.failed p.effect.kind),
               current := none } := by
  refine h.told 0 (.answer .pass) fun x tell hfails => ?_
  change exec (Engine.cancel tell r) m = _
  rw [Engine.exec_cancel tell hm.phase_eq hm.current_eq, exec_bind]
  unfold Engine.complete
  rw [exec_modify_bind, hfails.fails]

end Machine.Place

namespace Purify

theorem place : Machine.Place rules none machine :=
  (Machine.Place.opening (m := { table }) rfl rfl rfl).call (.start [Group.always [effect]] none)

/-- The machine after the debts are passed over, while its observers are told. -/
def passed : Machine :=
  { machine with request := none, results := { items := [.failed effect.kind] }, current := none }

/-- What they are told. -/
def failure : Event := .executed effect.kind 0 (.failed effect.kind)

end Purify

/-- Once the debts are passed over, there is nothing more to cancel. -/
theorem exec_cancel_of_no_debts :
    let done := (Purify.machine.call Purify.rules (.answer .pass)).2
    done.request = none ∧
      ∀ tell, exec (Engine.cancel tell Purify.rules) done = (.ok done.outcome, done) :=
  ⟨rfl, ((Purify.place.call (.answer .pass)).exec_cancel_of_request_eq_none rfl).1⟩

/-- While observers are told that the debts are passed over there is no request either, but whoever
cancels there fails, and so does an order that does so. -/
theorem cancel_fails_of_debts :
    Machine.Place Purify.rules (some Purify.failure) Purify.passed ∧
      Purify.passed.request = none ∧
      (∀ tell, exec (Engine.cancel tell Purify.rules) Purify.passed =
        (.error .noCurrentEffect, Purify.passed)) ∧
      let watched : Machine :=
        { Purify.machine with observers := [.order { moment := .executed, command := .cancel }] }
      (watched.call Purify.rules (.answer .pass)).2.reports.map (·.answer) =
        [.error .noCurrentEffect] := by
  have hplace : Machine.Place Purify.rules (some Purify.failure) Purify.passed :=
    Purify.place.passedOver Purify.machine_suspended
  exact ⟨hplace, rfl, fun tell => Engine.exec_cancel_of_no_effect tell rfl rfl, rfl⟩

end Treasury
