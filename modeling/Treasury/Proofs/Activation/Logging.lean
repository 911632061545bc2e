import Treasury.Proofs.Activation.History
import Treasury.Proofs.Activation.Rest

/-!
# The log of a call

What a call does to activations is not in its answer, and only partly in what it leaves. So the
engine is run once more with a log beside the machine: each of its functions writes down what it
does, at the place where it does it, and is the function of the engine otherwise.

* `Logbook` is a machine with the deeds that were done, and `LoggedRun` are the actions on it.
* `Logged.start`, `Logged.resume`, `Logged.cancel` and what they are made of follow the engine line
  by line.
* `Erases`: without its log, an action on a logbook is an action on the machine.
  `Logged.make_erases` says so of all calls, so the log is that of the engine.
* `Machine.deedsOf` and `Machine.deeds` are the deeds of a call and of the calls of a host.
-/

namespace Treasury

/-- A machine with the deeds that were done. -/
structure Logbook where
  /-- The machine. -/
  machine : Machine
  /-- The deeds, oldest first. -/
  deeds : List Deed := []

/-- A call of the machine that logs what it does. -/
abbrev LoggedRun := ExceptT EngineError (StateM Logbook)

namespace LoggedRun

variable {α : Type}

/-- Runs an action of the machine, and logs some deeds that depend on what it does. -/
def logging (x : Run α) (deeds : Machine → Except EngineError α × Machine → List Deed) :
    LoggedRun α := do
  let l ← get
  let done := exec x l.machine
  set { l with machine := done.2, deeds := l.deeds ++ deeds l.machine done }
  match done.1 with
  | .ok a => pure a
  | .error e => throw e

/-- Runs an action of the machine that is no deed. -/
def silent (x : Run α) : LoggedRun α := logging x fun _ _ => []

/-- The machine as it is. -/
def machine : LoggedRun Machine := return (← get).machine

/-- Logs a deed. -/
def note (d : Deed) : LoggedRun Unit := modify fun l => { l with deeds := l.deeds ++ [d] }

@[simp]
theorem exec_logging (x : Run α) (deeds : Machine → Except EngineError α × Machine → List Deed)
    (l : Logbook) :
    exec (logging x deeds) l = ((exec x l.machine).1,
      { machine := (exec x l.machine).2,
        deeds := l.deeds ++ deeds l.machine (exec x l.machine) }) := by
  simp only [logging, exec_bind, exec_get, exec_set]
  rcases exec x l.machine with ⟨e | a, m⟩
  · rfl
  · rfl

@[simp]
theorem exec_silent (x : Run α) (l : Logbook) :
    exec (silent x) l =
      ((exec x l.machine).1, { l with machine := (exec x l.machine).2 }) := by
  rw [silent, exec_logging, List.append_nil]

theorem exec_silent_modify_bind {β : Type} (g : Machine → Machine) (f : PUnit → LoggedRun β)
    (l : Logbook) :
    exec (silent (modify g) >>= f) l = exec (f ⟨⟩) { l with machine := g l.machine } := by
  rw [exec_bind, exec_silent, exec_modify]

theorem exec_silent_set_bind {β : Type} (m : Machine) (f : PUnit → LoggedRun β) (l : Logbook) :
    exec (silent (set m) >>= f) l = exec (f ⟨⟩) { l with machine := m } := by
  rw [exec_bind, exec_silent, exec_set]

theorem exec_machine_bind {β : Type} (f : Machine → LoggedRun β) (l : Logbook) :
    exec (machine >>= f) l = exec (f l.machine) l := rfl

theorem exec_note_bind {β : Type} (d : Deed) (f : Unit → LoggedRun β) (l : Logbook) :
    exec (note d >>= f) l = exec (f ()) { l with deeds := l.deeds ++ [d] } := rfl

end LoggedRun

open LoggedRun (logging silent machine note)

/-! ## The engine with a log -/

namespace Logged

/-- How the observers are told about an event. -/
abbrev Tell := Event → LoggedRun Unit

section Engine

variable (tell : Tell) (r : Rules)

/-- The outcome as the machine stands. -/
def outcome : LoggedRun Outcome := silent Engine.outcome

/-- Queues the effects of groups. What is queued is logged even if not all can be. -/
def expand (source : Option Card) (groups : List Group) : LoggedRun Unit :=
  logging (Engine.expand r source groups) fun m done =>
    [.queued (done.2.queue.drop m.queue.length) m.table.game]

/-- Puts the result of an effect on the stack and tells the observers. -/
def complete (d : Deed) (p : Pending) (result : EffectResult) (magnitude : Int) :
    LoggedRun Unit := do
  note d
  silent (modify fun m => { m with results := m.results.push result, current := none })
  tell (.executed p.effect.kind magnitude result)

/-- Passes an effect over. -/
def passOver (p : Pending) : LoggedRun Unit :=
  complete tell (.passedOver p) p (.failed p.effect.kind) p.speculative

/-- Carries an effect out with what is handed to it. -/
def dispatch (p : Pending) (x : Handover) : LoggedRun Unit := do
  silent (modify fun m => { m with phase := .dispatching })
  let magnitude ← logging (Engine.authoritative r p x.targets) fun _ done =>
    match done.1 with
    | .ok _ => []
    | .error _ => [.faulted p x]
  let before ← machine
  let a : Assignment :=
    { effect := p.effect, magnitude, results := before.results, targets := x.targets }
  let result ← silent (Run.attempt (a.execute r) a.failed)
  let after ← machine
  complete tell (.carriedOut p x ⟨a, before.table⟩ after.table result) p result magnitude

/-- Pauses the run with a request for an effect. -/
def suspend (p : Pending) (request : TargetRequest) : LoggedRun Outcome := do
  silent (modify fun m => { m with phase := .awaitingTarget, request := some request })
  note (.asked p request)
  tell (.targetRequired request)
  outcome

/-- Ends the activation. -/
def finish : LoggedRun Outcome := do
  silent (modify fun m => { m with phase := .completed })
  let m ← machine
  note (.completed m.outcome m.table)
  silent (set { m with queue := [], results := {}, current := none, source := none })
  tell (.completed m.source)
  return m.outcome

/-- Takes an effect in work. -/
def work (p : Pending) : LoggedRun (Option TargetRequest) := do
  if p.effect.target.needsSelection then
    let m ← machine
    let candidates := p.effect.selectable r m.table.game
    let request := p.effect.request candidates
    if candidates.isEmpty then
      passOver tell p
      return none
    else if r.config.autoSelect then
      dispatch tell r p (m.handover p (candidates.take request.maxSelections.toNat))
      return none
    else return some request
  else
    -- What is handed over is taken down as it is before dice are thrown for it.
    let m ← machine
    silent (modify fun m => { m with phase := .autoTargeting })
    let targets ← silent (Run.play (p.effect.autoTargets r p.source))
    dispatch tell r p (m.handover p targets)
    return none

/-- Carries the effects of the queue out. -/
def drain (activation : Nat) : List Pending → LoggedRun Outcome
  | [] => finish tell
  | p :: rest => do
    silent (modify fun m => { m with queue := rest, current := some p })
    match ← work tell r p with
    | some request => suspend tell p request
    | none =>
      if (← machine).activation = activation then drain activation rest else outcome

/-- Goes on with the queue. -/
def proceed (activation : Nat) : LoggedRun Outcome := do
  let m ← machine
  if m.activation = activation then drain tell r activation m.queue else outcome

/-- Starts an activation. -/
def start (groups : List Group) (source : Option Card) : LoggedRun Outcome := do
  let m ← machine
  if m.isBusy && r.config.policy = .reject then throw (.inProgress m.phase)
  else
    let activation := m.activation + 1
    note (.began groups source m.table)
    silent (set { m with
      activation, queue := [], results := {}, current := none, request := none, source })
    tell (.started source)
    if (← machine).activation = activation then
      silent (modify fun m => { m with phase := .expanding })
      expand r source groups
      proceed tell r activation
    else outcome

/-- Answers the request. -/
def resume (ids : List String) : LoggedRun Outcome := do
  let m ← machine
  match m.request with
  | none => throw .nothingPending
  | some request =>
    if m.phase ≠ .awaitingTarget then throw .nothingPending
    else
      match Engine.selected request ids with
      | .error e => throw (.invalidSelection e)
      | .ok targets =>
        silent (modify fun m => { m with request := none })
        let p ← silent Engine.current
        dispatch tell r p (m.handover p targets)
        proceed tell r m.activation

/-- Cancels the request. -/
def cancel : LoggedRun Outcome := do
  let m ← machine
  if m.phase ≠ .awaitingTarget then outcome
  else
    silent (modify fun m => { m with request := none })
    let p ← silent Engine.current
    passOver tell p
    proceed tell r m.activation

/-- Makes a call of a host. -/
def make : HostCall → LoggedRun Outcome
  | .start groups source => start tell r groups source
  | .answer (.pick ids) => resume tell r ids
  | .answer .pass => cancel tell r

/-- Gives a command to the machine. -/
def perform : Command → LoggedRun Reply
  | .start groups source => do
    let card ← match source with
      | none => pure none
      | some id => some <$> silent (Run.play (Play.makeFromGame (·.cardNamed id)))
    .outcome <$> start tell r groups card
  | .resume ids => .outcome <$> resume tell r ids
  | .cancel => .outcome <$> cancel tell r
  | .preview => return .queued (← machine).preview

/-- Gives the command of an order to the machine and reports what came of it. -/
def carryOut (o : StandingOrder) : LoggedRun Unit := do
  let done := exec (perform tell r o.command) (← get)
  let m := done.2.machine
  let report : Report := { serial := o.serial, answer := done.1, boosts := m.table.game.boosts }
  set { done.2 with machine := { m with reports := m.reports ++ [report] } }

/-- Tells one observer about an event. -/
def tellOne (e : Event) (index : Nat) : LoggedRun Unit := do
  let m ← machine
  match m.observers[index]? with
  | none => pure ()
  | some .recorder => silent (set { m with record := m.record ++ [e] })
  | some (.order o) =>
    if o.moment = e.moment then
      let seen := o.seen + 1
      silent (set { m with observers := m.observers.set index (.order { o with seen }) })
      if seen = o.nth then carryOut tell r o
    else pure ()

end Engine

/-- Tells the observers about an event. -/
def notify (r : Rules) : Nat → Tell
  | 0, e => silent (Engine.notify r 0 e)
  | depth + 1, e => do
    (List.range (← machine).observers.length).forM (tellOne (notify r depth) r e)

end Logged

/-! ## The log changes nothing -/

/-- Without its log, an action on a logbook is the given action on the machine. -/
def Erases {α : Type} (x : LoggedRun α) (y : Run α) : Prop :=
  ∀ l : Logbook, exec y l.machine = ((exec x l).1, (exec x l).2.machine)

namespace Erases

variable {α β : Type} {x : LoggedRun α} {y : Run α}

theorem pure (a : α) : Erases (Pure.pure a) (Pure.pure a) := fun _ => rfl

theorem throw (e : EngineError) :
    Erases (MonadExcept.throw e : LoggedRun α) (MonadExcept.throw e) := fun _ => rfl

theorem logging (y : Run α) (deeds : Machine → Except EngineError α × Machine → List Deed) :
    Erases (LoggedRun.logging y deeds) y := fun l => by rw [LoggedRun.exec_logging]

theorem silent (y : Run α) : Erases (LoggedRun.silent y) y := .logging y _

/-- What both parts of an action erase to, the whole does. -/
theorem bind {f : α → LoggedRun β} {g : α → Run β} (hx : Erases x y)
    (hf : ∀ a, Erases (f a) (g a)) : Erases (x >>= f) (y >>= g) := by
  intro l
  rw [exec_bind, exec_bind, hx l]
  rcases exec x l with ⟨e | a, l'⟩
  · rfl
  · exact hf a l'

/-- Looking at the machine is nothing that the engine has to do. -/
theorem machine_bind {f : Machine → LoggedRun α} (hf : ∀ m, Erases (f m) y) :
    Erases (machine >>= f) y := fun l => hf l.machine l

theorem get_bind {f : Machine → LoggedRun α} {g : Machine → Run α}
    (hf : ∀ m, Erases (f m) (g m)) : Erases (machine >>= f) (get >>= g) :=
  fun l => hf l.machine l

/-- Nor is taking a deed down. -/
theorem note_bind {d : Deed} {f : Unit → LoggedRun α} (hf : Erases (f ()) y) :
    Erases (note d >>= f) y := fun l => hf { l with deeds := l.deeds ++ [d] }

theorem map (hx : Erases x y) (g : α → β) : Erases (g <$> x) (g <$> y) := by
  rw [map_eq_pure_bind, map_eq_pure_bind]
  exact hx.bind fun a => .pure (g a)

theorem ite {p : Prop} [Decidable p] {x' : LoggedRun α} {y' : Run α} (hx : Erases x y)
    (hx' : Erases x' y') : Erases (if p then x else x') (if p then y else y') := by
  split
  · exact hx
  · exact hx'

theorem forM {f : β → LoggedRun PUnit} {g : β → Run PUnit} (h : ∀ b, Erases (f b) (g b)) :
    ∀ bs : List β, Erases (bs.forM f) (bs.forM g)
  | [] => pure _
  | b :: bs => bind (h b) fun _ => forM h bs

end Erases

namespace Logged

@[simp]
theorem exec_outcome (l : Logbook) : exec outcome l = (.ok l.machine.outcome, l) := by
  rw [outcome, LoggedRun.exec_silent]
  rfl

variable {tell : Tell} {tell' : Engine.Tell} {r : Rules}

section Calls

variable (ht : ∀ e, Erases (tell e) (tell' e))

include ht

theorem complete_erases (d : Deed) (p : Pending) (result : EffectResult) (magnitude : Int) :
    Erases (complete tell d p result magnitude) (Engine.complete tell' p result magnitude) :=
  .note_bind (.bind (.silent _) fun _ => ht _)

theorem dispatch_erases (p : Pending) (x : Handover) :
    Erases (dispatch tell r p x) (Engine.dispatch tell' r p x.targets) :=
  .bind (.silent _) fun _ => .bind (.logging _ _) fun _ => .get_bind fun _ =>
    .bind (.silent _) fun _ => .machine_bind fun _ => complete_erases ht _ _ _ _

theorem suspend_erases (p : Pending) (q : TargetRequest) :
    Erases (suspend tell p q) (Engine.suspend tell' q) :=
  .bind (.silent _) fun _ => .note_bind (.bind (ht _) fun _ => .silent _)

theorem finish_erases : Erases (finish tell) (Engine.finish tell') :=
  .bind (.silent _) fun _ => .get_bind fun _ => .note_bind (.bind (.silent _) fun _ =>
    .bind (ht _) fun _ => .pure _)

theorem work_erases (p : Pending) : Erases (work tell r p) (Engine.work tell' r p) :=
  .ite
    (.get_bind fun _ => .ite (.bind (complete_erases ht _ _ _ _) fun _ => .pure _)
      (.ite (.bind (dispatch_erases ht _ _) fun _ => .pure _) (.pure _)))
    (.machine_bind fun _ => .bind (.silent _) fun _ => .bind (.silent _) fun _ =>
      .bind (dispatch_erases ht _ _) fun _ => .pure _)

theorem drain_erases (activation : Nat) (queue : List Pending) :
    Erases (drain tell r activation queue) (Engine.drain tell' r activation queue) := by
  induction queue with
  | nil => exact finish_erases ht
  | cons p rest ih =>
    refine .bind (.silent _) fun _ => .bind (work_erases ht p) fun request => ?_
    cases request with
    | none => exact .get_bind fun _ => .ite ih (.silent _)
    | some q => exact suspend_erases ht p q

theorem proceed_erases (activation : Nat) :
    Erases (proceed tell r activation) (Engine.proceed tell' r activation) :=
  .get_bind fun m => .ite (drain_erases ht activation m.queue) (.silent _)

theorem start_erases (groups : List Group) (source : Option Card) :
    Erases (start tell r groups source) (Engine.start tell' r groups source) :=
  .get_bind fun _ => .ite (.throw _) (.note_bind (.bind (.silent _) fun _ => .bind (ht _) fun _ =>
    .get_bind fun _ => .ite
      (.bind (.silent _) fun _ => .bind (.logging _ _) fun _ => proceed_erases ht _) (.silent _)))

theorem resume_erases (ids : List String) :
    Erases (resume tell r ids) (Engine.resume tell' r ids) := by
  refine .get_bind fun m => ?_
  rcases m.request with _ | q
  · exact .throw _
  · refine .ite (.throw _) ?_
    rcases Engine.selected q ids with e | targets
    · exact .throw _
    · exact .bind (.silent _) fun _ => .bind (.silent _) fun p =>
        .bind (dispatch_erases ht p _) fun _ => proceed_erases ht _

theorem cancel_erases : Erases (cancel tell r) (Engine.cancel tell' r) :=
  .get_bind fun _ => .ite (.silent _) (.bind (.silent _) fun _ => .bind (.silent _) fun p =>
    .bind (complete_erases ht _ p _ _) fun _ => proceed_erases ht _)

theorem make_erases (c : HostCall) : Erases (make tell r c) (Engine.make tell' r c) := by
  rcases c with _ | ⟨_ | _⟩
  · exact start_erases ht _ _
  · exact resume_erases ht _
  · exact cancel_erases ht

theorem perform_erases (c : Command) : Erases (perform tell r c) (Engine.perform tell' r c) := by
  cases c with
  | start groups source =>
    cases source with
    | none => exact .bind (.pure none) fun _ => (start_erases ht _ _).map _
    | some id => exact .bind ((Erases.silent _).map _) fun _ => (start_erases ht _ _).map _
  | resume ids => exact (resume_erases ht ids).map _
  | cancel => exact (cancel_erases ht).map _
  | preview => exact .get_bind fun _ => .pure _

theorem tellOne_erases (e : Event) (index : Nat) :
    Erases (tellOne tell r e index) (Engine.tellOne tell' r e index) := by
  refine .get_bind fun m => ?_
  rcases m.observers[index]? with _ | _ | o
  · exact .pure _
  · exact .silent _
  · -- An order runs its call on the state that it gets, which is no bind of the two.
    have hcarried : Erases (carryOut tell r o) (Engine.carryOut tell' r o) := by
      intro l
      have hdone := perform_erases (r := r) ht o.command l
      unfold Engine.carryOut
      rw [exec_get_bind]
      dsimp only
      rw [← exec, hdone]
      rfl
    exact .ite (.bind (.silent _) fun _ => .ite hcarried (.pure _)) (.pure _)

end Calls

/-- However deep notifications are nested, the log changes nothing. -/
theorem notify_erases (r : Rules) (depth : Nat) (e : Event) :
    Erases (notify r depth e) (Engine.notify r depth e) := by
  induction depth generalizing e with
  | zero => exact .silent _
  | succ depth ih => exact .get_bind fun _ => .forM (tellOne_erases ih e) _

end Logged

/-! ## What observers keep

A relation that the calls of an order keep is kept by all notifications, as for the engine without
a log. -/

namespace Logged

variable {tell : Tell} {r : Rules} {R : Logbook → Logbook → Prop}

/-- A relation does not look at what belongs to the observers. -/
def NeglectsObservers (R : Logbook → Logbook → Prop) : Prop :=
  ∀ m ds observers record reports, R ⟨m, ds⟩ ⟨{ m with observers, record, reports }, ds⟩

/-- Besides calling the machine, a command may name the source of an activation. -/
theorem keeps_perform [IsPreorder Logbook R]
    (hnamed : ∀ m ds id, R ⟨m, ds⟩
      ⟨{ m with table := { m.table with game := (m.table.game.cardNamed id).2 } }, ds⟩)
    (hstart : ∀ groups source, Keeps R (start tell r groups source))
    (hresume : ∀ ids, Keeps R (resume tell r ids)) (hcancel : Keeps R (cancel tell r))
    (c : Command) : Keeps R (perform tell r c) := by
  cases c with
  | start groups source =>
    have hdone := fun card => (hstart groups card).map Reply.outcome
    cases source with
    | none =>
      rw [perform, pure_bind]
      exact hdone none
    | some id =>
      rw [perform]
      -- The card that is named may have to be made.
      refine Keeps.bind (Keeps.map (fun l => ?_) _) hdone
      rw [LoggedRun.exec_silent, Run.exec_play, Play.exec_makeFromGame]
      exact hnamed l.machine l.deeds id
  | resume ids =>
    rw [perform]
    exact (hresume ids).map Reply.outcome
  | cancel =>
    rw [perform]
    exact hcancel.map Reply.outcome
  | preview => exact .of_fixed fun _ => rfl

section Observers

variable [IsPreorder Logbook R] (hneglects : NeglectsObservers R)

include hneglects

/-- An order counts the event and reports what came of its command. -/
theorem keeps_tellOne (hperform : ∀ c, Keeps R (perform tell r c)) (e : Event) (index : Nat) :
    Keeps R (tellOne tell r e index) := by
  intro l
  unfold tellOne
  rw [LoggedRun.exec_machine_bind]
  split
  · exact Std.Refl.refl l
  · rw [LoggedRun.exec_silent, exec_set]
    exact hneglects l.machine l.deeds l.machine.observers _ l.machine.reports
  · next o _ =>
    split
    · dsimp only
      rw [LoggedRun.exec_silent_set_bind]
      -- The order counts the event, gives its command, and reports.
      have hcounted := hneglects l.machine l.deeds
        (l.machine.observers.set index (.order { o with seen := o.seen + 1 })) l.machine.record
        l.machine.reports
      refine IsTrans.trans (r := R) _ _ _ hcounted (Keeps.ite (fun u => ?_) (.pure _) _)
      exact IsTrans.trans _ _ _ (hperform o.command u) (hneglects _ _ _ _ _)
    · exact Std.Refl.refl l

/-- However deep notifications are nested: the calls in them tell theirs with one depth less. -/
theorem keeps_notify
    (hperform : ∀ depth, (∀ e, Keeps R (notify r depth e)) →
      ∀ c, Keeps R (perform (notify r depth) r c))
    (depth : Nat) (e : Event) : Keeps R (notify r depth e) := by
  induction depth generalizing e with
  | zero =>
    intro l
    rw [notify, LoggedRun.exec_silent, Engine.notify, exec_modify]
    split
    · exact hneglects l.machine l.deeds l.machine.observers _ l.machine.reports
    · exact Std.Refl.refl l
  | succ depth ih =>
    rw [notify]
    exact .bind (.of_fixed fun _ => rfl) fun _ =>
      .forM (fun index => keeps_tellOne hneglects (hperform depth ih) e index) _

end Observers

/-- Notifications do not fail. -/
theorem notify_tells (r : Rules) (depth : Nat) (e : Event) :
    Throws (fun _ => False) (notify r depth e) := by
  intro l err herr
  rw [← congrArg Prod.fst (notify_erases r depth e l)] at herr
  exact Engine.notify_tells depth e l.machine err herr

end Logged

/-! ## Deeds of calls -/

namespace Machine

/-- A call of the machine with its log. -/
def logged (r : Rules) (m : Machine) (c : HostCall) : Except EngineError Outcome × Logbook :=
  exec (Logged.make (Logged.notify r m.depth) r c) { machine := m }

/-- What a call of the machine does. -/
def deedsOf (r : Rules) (m : Machine) (c : HostCall) : List Deed := (m.logged r c).2.deeds

/-- What calls of the machine do, one after another. -/
def deeds (r : Rules) : Machine → List HostCall → List Deed
  | _, [] => []
  | m, c :: rest => m.deedsOf r c ++ deeds r (m.call r c).2 rest

variable {r : Rules} (m : Machine) (c : HostCall)

/-- The log is that of the call. -/
theorem call_eq_logged : m.call r c = ((m.logged r c).1, (m.logged r c).2.machine) := by
  rw [call_eq_make]
  exact Logged.make_erases (Logged.notify_erases r m.depth) c { machine := m }

end Machine

end Treasury
