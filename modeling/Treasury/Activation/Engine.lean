import Treasury.Activation.Condition
import Treasury.Activation.Machine
import Treasury.Activation.Magnitude
import Treasury.Execution.Execute

/-!
# The engine

`start`, `resume` and `cancel` run an activation in two phases. First all groups are evaluated and
their effects queued with speculative magnitudes; then the effects are carried out in order, each
with its magnitude resolved again. The run pauses at an effect whose targets the player has to
pick, and goes on from there with an answer or without one.

Every function takes `tell`, which tells the observers about an event. It may call the engine again,
so after each call of it the run goes on only if its own activation is still the current one.
-/

namespace Treasury.Engine

/-- How the observers are told about an event. -/
abbrev Tell := Event → Run Unit

variable (tell : Tell) (r : Rules)

/-- The outcome as the machine stands. -/
def outcome : Run Outcome := return (← get).outcome

/-- Queues an effect with its magnitude as it is now. -/
def enqueue (source : Option Card) (effect : Effect) : Run Unit := do
  let speculative ← Run.play (effect.magnitude r (← get).results [])
  modify fun m => { m with queue := m.queue ++ [{ effect, speculative, source }] }

/-- Queues the effects of each group that apply. All groups see the game as it is before any effect
is carried out. -/
def expand (source : Option Card) : List Group → Run Unit
  | [] => pure ()
  | grp :: rest => do
    let m ← get
    (grp.chosen r m.table.game m.results).forM (enqueue r source)
    expand source rest

/-- Puts the result of an effect on the stack and tells the observers. -/
def complete (p : Pending) (result : EffectResult) (magnitude : Int) : Run Unit := do
  modify fun m => { m with results := m.results.push result, current := none }
  tell (.executed p.effect.kind magnitude result)

/-- The magnitude that counts: resolved again if it is dynamic, and else the speculative one. -/
def authoritative (p : Pending) (targets : List Card) : Run Int := do
  if p.effect.isDynamic then Run.play (p.effect.magnitude r (← get).results targets)
  else return p.speculative

/-- Carries an effect out. A failure on the way counts as a failed effect. -/
def dispatch (p : Pending) (targets : List Card) : Run Unit := do
  modify fun m => { m with phase := .dispatching }
  let magnitude ← authoritative r p targets
  let a : Assignment := { effect := p.effect, magnitude, results := (← get).results, targets }
  let result ← Run.attempt (a.execute r) a.failed
  complete tell p result magnitude

/-- Pauses the run with a request. -/
def suspend (request : TargetRequest) : Run Outcome := do
  modify fun m => { m with phase := .awaitingTarget, request := some request }
  tell (.targetRequired request)
  -- An observer may have answered the request, so the machine is asked where it stands now.
  outcome

/-- Ends the activation. The outcome is that of before it is cleared. -/
def finish : Run Outcome := do
  modify fun m => { m with phase := .completed }
  -- What the observers find cleared is still in the outcome.
  let m ← get
  set { m with queue := [], results := {}, current := none, source := none }
  tell (.completed m.source)
  return m.outcome

/-- Takes an effect in work. If the player has to pick its targets, the answer is the request to do
so; otherwise the effect is carried out or, without eligible targets, passed over. -/
def work (p : Pending) : Run (Option TargetRequest) := do
  if p.effect.target.needsSelection then
    let candidates := p.effect.selectable r (← get).table.game
    let request := p.effect.request candidates
    if candidates.isEmpty then
      complete tell p (.failed p.effect.kind) p.speculative
      return none
    else if r.config.autoSelect then
      dispatch tell r p (candidates.take request.maxSelections.toNat)
      return none
    else return some request
  else
    modify fun m => { m with phase := .autoTargeting }
    let targets ← Run.play (p.effect.autoTargets r p.source)
    dispatch tell r p targets
    return none

/-- Carries the effects of the queue out until it is empty, until targets have to be picked, or
until another activation takes over from the one of the given number. -/
def drain (activation : Nat) : List Pending → Run Outcome
  | [] => finish tell
  | p :: rest => do
    modify fun m => { m with queue := rest, current := some p }
    match ← work tell r p with
    | some request => suspend tell request
    | none =>
      if (← get).activation = activation then drain activation rest else outcome

/-- Goes on with the queue, unless another activation took over from the one of the given number. -/
def proceed (activation : Nat) : Run Outcome := do
  let m ← get
  if m.activation = activation then drain tell r activation m.queue else outcome

/-- Starts an activation. One that is in flight is discarded, or refuses the new one. -/
def start (groups : List Group) (source : Option Card) : Run Outcome := do
  let m ← get
  if m.isBusy && r.config.policy = .reject then throw (.inProgress m.phase)
  else
    let activation := m.activation + 1
    set { m with
      activation, queue := [], results := {}, current := none, request := none, source }
    tell (.started source)
    -- An observer may have started another activation.
    if (← get).activation = activation then
      modify fun m => { m with phase := .expanding }
      expand r source groups
      proceed tell r activation
    else outcome

/-- The candidates that a selection names, or what is wrong with it. -/
def selected (request : TargetRequest) (ids : List String) : Except SelectionError (List Card) :=
  let invalid := ids.filter (· ∉ request.candidateIds)
  if !invalid.isEmpty then .error (.notEligible invalid)
  else if ¬ ids.Nodup then .error .repeated
  else if (ids.length : Int) > request.maxSelections then
    .error (.tooMany ids.length request.maxSelections)
  else .ok (ids.filterMap fun id => request.candidates.reverse.find? (·.instanceId = id))

/-- The effect in work. -/
def current : Run Pending := do
  match (← get).current with
  | some p => return p
  | none => throw .noCurrentEffect

/-- Answers the request. A selection that is refused leaves it waiting. -/
def resume (ids : List String) : Run Outcome := do
  let m ← get
  match m.request with
  | none => throw .nothingPending
  | some request =>
    if m.phase ≠ .awaitingTarget then throw .nothingPending
    else
      match selected request ids with
      | .error e => throw (.invalidSelection e)
      | .ok targets =>
        modify fun m => { m with request := none }
        dispatch tell r (← current) targets
        -- The number is from before the effect, during which another activation may start.
        proceed tell r m.activation

/-- Answers the request by picked cards. -/
def resumeWith (picks : List Pick) : Run Outcome := resume tell r (Pick.ids picks)

/-- Cancels the request: its effect fails, and the rest of the queue is carried out. A machine that
does not wait is left as it is. -/
def cancel : Run Outcome := do
  let m ← get
  if m.phase ≠ .awaitingTarget then outcome
  else
    modify fun m => { m with request := none }
    let p ← current
    complete tell p (.failed p.effect.kind) p.speculative
    proceed tell r m.activation

end Treasury.Engine
