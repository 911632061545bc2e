import Treasury.Activation.Engine
import Treasury.Proofs.Play

/-!
# What the machine does about an effect

The machine works its queue off one effect after another, telling its observers what it does. The
equations here open its loop once: they say what is left to do after the first effect of the queue,
after an answer, and after an activation has begun. They hold for all observers.

* `Pending.carriedOut` is what carrying an effect out does to the table, without a machine, and
  `Engine.exec_dispatch` says that the machine does that and then tells its observers.
* `Engine.exec_drain_nothing` and its companions are the four things that may happen to the first
  effect of the queue.
* `Engine.exec_resume` and `Engine.exec_cancel` say what the machine does about an answer, and
  `Engine.exec_start` what it does about an activation that begins.
-/

namespace Treasury

namespace Run

variable {α : Type}

@[simp]
theorem exec_play (action : Play α) (m : Machine) :
    exec (play action) m =
      ((exec action m.table).1.mapError .fault, { m with table := (exec action m.table).2 }) := by
  simp only [play, exec_bind, exec_get, exec_set]
  rw [← exec]
  rcases exec action m.table with ⟨f | a, t⟩
  · rfl
  · rfl

@[simp]
theorem exec_attempt (action : Play α) (otherwise : α) (m : Machine) :
    exec (attempt action otherwise) m =
      (.ok ((exec action m.table).1.toOption.getD otherwise),
        { m with table := (exec action m.table).2 }) := by
  simp only [attempt, exec_bind, exec_get, exec_set]
  rw [← exec]
  rcases exec action m.table with ⟨f | a, t⟩
  · rfl
  · rfl

end Run

namespace Pending

variable (r : Rules) (p : Pending) (targets : List Card) (results : ResultStack)

/-- The magnitude that counts. -/
def magnitude : Play Int :=
  if p.effect.isDynamic then p.effect.magnitude r results targets else pure p.speculative

/-- Carries an effect of the queue out: its magnitude and its result. -/
def carriedOut : Play (Int × EffectResult) := do
  let magnitude ← p.magnitude r targets results
  let a : Assignment := { effect := p.effect, magnitude, results, targets }
  let result ← tryCatch (a.execute r) fun _ => pure a.failed
  return (magnitude, result)

/-- Working the magnitude out throws the dice at most. -/
theorem keeps_magnitude : Keeps Table.Rolled (p.magnitude r targets results) :=
  .ite (.magnitude p.effect r results targets) (.pure _)

/-- Once its magnitude is known an effect is executed, and if that fails the table stays as it was
left then. -/
theorem exec_carriedOut (t : Table) :
    exec (p.carriedOut r targets results) t =
      match exec (p.magnitude r targets results) t with
      | (.error f, u) => (.error f, u)
      | (.ok magnitude, u) =>
        let a : Assignment := { effect := p.effect, magnitude, results, targets }
        (.ok (magnitude, (exec (a.execute r) u).1.toOption.getD a.failed),
          (exec (a.execute r) u).2) := by
  rw [carriedOut, exec_bind]
  rcases exec (p.magnitude r targets results) t with ⟨f | magnitude, u⟩
  · rfl
  · dsimp only
    rw [exec_bind, exec_tryCatch]
    rcases exec (Assignment.execute _ r) u with ⟨f | result, v⟩
    · rfl
    · rfl

variable {r p targets results} {t u : Table}

/-- An effect that is carried out is executed once the dice are thrown for its magnitude. -/
theorem exists_dice_of_carriedOut {magnitude : Int} {result : EffectResult}
    (h : exec (p.carriedOut r targets results) t = (.ok (magnitude, result), u)) :
    let a : Assignment := { effect := p.effect, magnitude, results, targets }
    ∃ dice, result = (exec (a.execute r) { t with dice }).1.toOption.getD a.failed ∧
      u = (exec (a.execute r) { t with dice }).2 := by
  have hrolled := p.keeps_magnitude r targets results t
  rw [exec_carriedOut] at h
  rcases hmagnitude : exec (p.magnitude r targets results) t with ⟨f | n, v⟩ <;>
    rw [hmagnitude] at h hrolled
  · cases h
  · obtain ⟨dice, rfl⟩ := hrolled
    cases h
    exact ⟨dice, rfl, rfl⟩

end Pending

namespace Engine

variable (tell : Tell) {r : Rules} {m : Machine} {p : Pending}

/-- An effect is queued once its magnitude is drawn. -/
theorem exec_enqueue (source : Option Card) (e : Effect) (m : Machine) :
    exec (enqueue r source e) m =
      match exec (e.magnitude r m.results []) m.table with
      | (.error f, t) => (.error (.fault f), { m with table := t })
      | (.ok n, t) => (.ok (), { m with
          table := t, queue := m.queue ++ [{ effect := e, speculative := n, source }] }) := by
  simp only [enqueue, exec_bind, exec_get, Run.exec_play]
  rcases exec (e.magnitude r m.results []) m.table with ⟨f | n, t⟩
  · rfl
  · rfl

/-- The magnitude that counts is worked out on the table with the results of the machine. -/
theorem exec_authoritative (targets : List Card) (m : Machine) :
    exec (authoritative r p targets) m =
      exec (Run.play (p.magnitude r targets m.results)) m := by
  unfold authoritative Pending.magnitude
  split
  · rfl
  · rfl

/-- The effect in work is the one that the machine holds. -/
theorem exec_current (m : Machine) :
    exec current m =
      (match m.current with
        | some p => .ok p
        | none => .error .noCurrentEffect, m) := by
  unfold current
  rw [exec_get_bind]
  rcases m.current with _ | p
  · rfl
  · rfl

/-- The machine carries an effect out and then tells its observers. -/
theorem exec_dispatch (targets : List Card) :
    exec (dispatch tell r p targets) m =
      match exec (p.carriedOut r targets m.results) m.table with
      | (.error f, t) => (.error (.fault f), { m with phase := .dispatching, table := t })
      | (.ok (magnitude, result), t) =>
        exec (tell (.executed p.effect.kind magnitude result))
          { m with phase := .dispatching, table := t, results := m.results.push result,
                   current := none } := by
  unfold dispatch Pending.carriedOut
  simp only [exec_bind, exec_modify, exec_authoritative, Run.exec_play]
  rcases exec (p.magnitude r targets m.results) m.table with ⟨f | magnitude, t⟩
  · rfl
  · rw [show Except.mapError EngineError.fault (.ok magnitude) = .ok magnitude from rfl]
    simp only [exec_get, Run.exec_attempt, exec_tryCatch, complete, exec_bind, exec_modify]
    -- A failure counts as a failed effect on both sides.
    rcases exec (Assignment.execute _ r) t with ⟨f | result, u⟩
    · rfl
    · rfl

/-- What comes after an effect starts where the observers are told of it. -/
theorem exec_dispatch_bind (targets : List Card) (next : Unit → Run Outcome) :
    exec (dispatch tell r p targets >>= next) m =
      match exec (p.carriedOut r targets m.results) m.table with
      | (.error f, t) => (.error (.fault f), { m with phase := .dispatching, table := t })
      | (.ok (magnitude, result), t) =>
        exec (tell (.executed p.effect.kind magnitude result) >>= next)
          { m with phase := .dispatching, table := t, results := m.results.push result,
                   current := none } := by
  rw [exec_bind, exec_dispatch]
  rcases exec (p.carriedOut r targets m.results) m.table with ⟨f | ⟨magnitude, result⟩, t⟩
  · rfl
  · exact (exec_bind ..).symm

/-- Goes on behind an effect of the queue, unless another activation took over. -/
def goOn (r : Rules) (activation : Nat) (rest : List Pending) : Run Outcome := do
  if (← get).activation = activation then drain tell r activation rest else outcome

theorem exec_goOn {activation : Nat} (h : m.activation = activation) (rest : List Pending) :
    exec (goOn tell r activation rest) m = exec (drain tell r activation rest) m := by
  rw [goOn, exec_get_bind, if_pos h]

/-- The queue that the machine holds is the rest of it. -/
theorem exec_proceed (activation : Nat) :
    exec (proceed tell r activation) m = exec (goOn tell r activation m.queue) m := rfl

section Queue

variable {activation : Nat} {rest : List Pending}

/-- Where the player has to pick the targets, what is done depends on the candidates there are, and
on whether they are picked for the player. -/
theorem exec_drain_selecting (hsel : p.effect.target.needsSelection = true) :
    exec (drain tell r activation (p :: rest)) m =
      exec
        (let candidates := p.effect.selectable r m.table.game
        if candidates.isEmpty then do
          complete tell p (.failed p.effect.kind) p.speculative
          goOn tell r activation rest
        else if r.config.autoSelect then do
          dispatch tell r p (candidates.take (p.effect.request candidates).maxSelections.toNat)
          goOn tell r activation rest
        else suspend tell (p.effect.request candidates))
        { m with queue := rest, current := some p } := by
  rw [drain, exec_modify_bind]
  unfold work
  rw [if_pos hsel, bind_assoc, exec_get_bind]
  dsimp only
  -- What `work` answers says whether to go on, so the two are put together case by case.
  split
  · rw [bind_assoc]
    rfl
  · split
    · rw [bind_assoc]
      rfl
    · rw [pure_bind]

/-- Where there is nothing to pick, the effect is passed over. -/
theorem exec_drain_nothing (hsel : p.effect.target.needsSelection = true)
    (hnone : (p.effect.selectable r m.table.game).isEmpty = true) :
    exec (drain tell r activation (p :: rest)) m =
      exec (complete tell p (.failed p.effect.kind) p.speculative >>= fun _ =>
        goOn tell r activation rest) { m with queue := rest, current := some p } := by
  rw [exec_drain_selecting tell hsel]
  dsimp only
  rw [if_pos hnone]

/-- Targets may be picked for the player. -/
theorem exec_drain_picked (hsel : p.effect.target.needsSelection = true)
    (hsome : (p.effect.selectable r m.table.game).isEmpty = false)
    (hauto : r.config.autoSelect = true) :
    exec (drain tell r activation (p :: rest)) m =
      exec (dispatch tell r p ((p.effect.selectable r m.table.game).take
          (p.effect.request (p.effect.selectable r m.table.game)).maxSelections.toNat) >>= fun _ =>
        goOn tell r activation rest) { m with queue := rest, current := some p } := by
  rw [exec_drain_selecting tell hsel]
  dsimp only
  rw [if_neg (ne_true_of_eq_false hsome), if_pos hauto]

/-- Else the player is asked. -/
theorem exec_drain_asked (hsel : p.effect.target.needsSelection = true)
    (hsome : (p.effect.selectable r m.table.game).isEmpty = false)
    (hauto : r.config.autoSelect = false) :
    exec (drain tell r activation (p :: rest)) m =
      exec (suspend tell (p.effect.request (p.effect.selectable r m.table.game)))
        { m with queue := rest, current := some p } := by
  rw [exec_drain_selecting tell hsel]
  dsimp only
  rw [if_neg (ne_true_of_eq_false hsome), if_neg (ne_true_of_eq_false hauto)]

/-- All other targets are collected without asking. -/
theorem exec_drain_collected (hsel : p.effect.target.needsSelection = false) :
    exec (drain tell r activation (p :: rest)) m =
      match exec (p.effect.autoTargets r p.source) m.table with
      | (.error f, t) =>
        (.error (.fault f), { m with queue := rest, current := some p, phase := .autoTargeting,
                                     table := t })
      | (.ok targets, t) =>
        exec (dispatch tell r p targets >>= fun _ => goOn tell r activation rest)
          { m with queue := rest, current := some p, phase := .autoTargeting, table := t } := by
  rw [drain, exec_modify_bind]
  unfold work
  simp only [hsel, Bool.false_eq_true, if_false, bind_assoc, pure_bind]
  rw [exec_modify_bind, exec_bind, Run.exec_play]
  rcases exec (p.effect.autoTargets r p.source) m.table with ⟨f | targets, t⟩
  · rfl
  · rfl

end Queue

section Answers

variable {q : TargetRequest} (hphase : m.phase = .awaitingTarget) (hcurrent : m.current = some p)

include hphase hcurrent

/-- An accepted selection lets the effect that waits act on the selected cards. -/
theorem exec_resume (hrequest : m.request = some q) {ids : List String} {targets : List Card}
    (hids : selected q ids = .ok targets) :
    exec (resume tell r ids) m =
      exec (dispatch tell r p targets >>= fun _ => proceed tell r m.activation)
        { m with request := none } := by
  rw [resume, exec_get_bind]
  simp only [hrequest, hphase, ne_eq, not_true_eq_false, if_false, hids]
  rw [exec_modify_bind, current, bind_assoc, exec_get_bind]
  simp only [hphase, hcurrent, pure_bind]

omit hcurrent in
/-- A selection that is refused changes nothing. -/
theorem exec_resume_refused (hrequest : m.request = some q) {ids : List String}
    {error : SelectionError} (hids : selected q ids = .error error) :
    exec (resume tell r ids) m = (.error (.invalidSelection error), m) := by
  rw [resume, exec_get_bind]
  simp only [hrequest, hphase, ne_eq, not_true_eq_false, if_false, hids, exec_throw]

/-- A cancelled effect is passed over. -/
theorem exec_cancel :
    exec (cancel tell r) m =
      exec (complete tell p (.failed p.effect.kind) p.speculative >>= fun _ =>
        proceed tell r m.activation) { m with request := none } := by
  rw [cancel, exec_get_bind]
  simp only [hphase, ne_eq, not_true_eq_false, if_false]
  rw [exec_modify_bind, current, bind_assoc, exec_get_bind]
  simp only [hphase, hcurrent, pure_bind]

omit hcurrent in
/-- Where no effect waits to be cancelled, the request is closed and nothing else done. -/
theorem exec_cancel_of_no_effect (hcurrent : m.current = none) :
    exec (cancel tell r) m = (.error .noCurrentEffect, { m with request := none }) := by
  rw [cancel, exec_get_bind]
  simp only [hphase, ne_eq, not_true_eq_false, if_false]
  rw [exec_modify_bind, current, bind_assoc, exec_get_bind]
  simp only [hphase, hcurrent]
  rfl

omit hphase hcurrent in
/-- Without a request no selection is taken, whatever else the machine is at. -/
theorem exec_resume_of_request_eq_none (hrequest : m.request = none) (ids : List String) :
    exec (resume tell r ids) m = (.error .nothingPending, m) := by
  rw [resume, exec_get_bind, hrequest]
  rfl

omit hphase hcurrent in
/-- A machine that does not wait has nothing to cancel. -/
theorem exec_cancel_of_phase_ne (h : m.phase ≠ .awaitingTarget) :
    exec (cancel tell r) m = (.ok m.outcome, m) := by
  rw [cancel, exec_get_bind, if_pos h]
  rfl

end Answers

section Start

variable {groups : List Group} {source : Option Card}

/-- While an activation is in flight, another one may be refused, which changes nothing. -/
theorem exec_start_refused {m : Machine} (hbusy : m.isBusy = true)
    (hreject : r.config.policy = .reject) (groups : List Group) (source : Option Card) :
    exec (start tell r groups source) m = (.error (.inProgress m.phase), m) := by
  unfold start
  rw [exec_get_bind]
  simp only [hbusy, hreject, decide_true, Bool.and_self, if_true, exec_throw]

/-- An activation that is not refused takes the place of any other before it is told of. -/
theorem exec_start_begun {m : Machine} (hfree : m.isBusy = true → r.config.policy ≠ .reject)
    (groups : List Group) (source : Option Card) :
    exec (start tell r groups source) m =
      exec (tell (.started source) >>= fun _ => do
        if (← get).activation = m.activation + 1 then
          modify fun m => { m with phase := .expanding }
          expand r source groups
          proceed tell r (m.activation + 1)
        else outcome) { m with
          activation := m.activation + 1, queue := [], results := {}, current := none,
          request := none, source } := by
  have hnot : ¬ (m.isBusy && r.config.policy = .reject) = true := by
    simpa using hfree
  rw [start, exec_get_bind, if_neg hnot]
  rfl

/-- If telling of it starts no other activation, the effects of one that is started are queued and
carried out. -/
theorem exec_start {m u : Machine} {groups : List Group} {source : Option Card}
    (hfree : m.isBusy = true → r.config.policy ≠ .reject)
    (htell : exec (tell (.started source)) { m with
      activation := m.activation + 1, queue := [], results := {}, current := none,
      request := none, source } = (.ok (), u))
    (hu : u.activation = m.activation + 1) :
    exec (start tell r groups source) m =
      exec (expand r source groups >>= fun _ => proceed tell r (m.activation + 1))
        { u with phase := .expanding } := by
  rw [exec_start_begun tell hfree, exec_bind, htell]
  dsimp only
  rw [exec_get_bind, if_pos hu, exec_modify_bind]

end Start

end Engine

end Treasury
