import Treasury.Activation.Error
import Treasury.Activation.Result
import Treasury.Activation.Target

/-!
# The machine that resolves activations

An activation is one card play or event: a list of conditional groups. The machine holds what is
left of it between two calls: the queue of effects, the effect in work, the request that waits for
an answer and the results so far. Each activation has a number, by which a call that was
interrupted by a new activation knows that its own is over.

Observers are told what happens. One of them may be a recorder, which keeps every event. The others
are standing orders: an order waits for the `nth` event at its moment and then, from inside the
notification, calls the machine again, once.
-/

namespace Treasury

/-- An effect in the queue. -/
structure Pending where
  /-- The effect. -/
  effect : Effect
  /-- Its magnitude when it was queued. -/
  speculative : Int
  /-- The card that the activation came from. -/
  source : Option Card
  deriving DecidableEq, Inhabited

/-- Where an activation stands after a call. -/
structure Outcome where
  /-- The phase of the machine. -/
  phase : Phase
  /-- The results so far. -/
  results : List EffectResult
  /-- The request that waits for an answer. -/
  request : Option TargetRequest
  /-- The card that the activation came from. -/
  source : Option Card
  deriving DecidableEq, Inhabited

/-- What observers are told. -/
inductive Event where
  /-- An activation started. -/
  | started (source : Option Card)
  /-- Targets have to be picked. -/
  | targetRequired (request : TargetRequest)
  /-- An effect was carried out, passed over or cancelled. -/
  | executed (kind : Word EffectKind) (magnitude : Int) (result : EffectResult)
  /-- An activation completed. -/
  | completed (source : Option Card)
  deriving Inhabited

/-- The four moments at which observers are told something. -/
inductive Moment where
  | started
  | targetRequired
  | executed
  | completed
  deriving DecidableEq, Repr, Inhabited

instance : Vocabulary Moment where
  all := [.started, .targetRequired, .executed, .completed]
  name
    | .started => "started"
    | .targetRequired => "target_required"
    | .executed => "executed"
    | .completed => "completed"

/-- The moment of an event. -/
def Event.moment : Event → Moment
  | .started _ => .started
  | .targetRequired _ => .targetRequired
  | .executed .. => .executed
  | .completed _ => .completed

/-- A call of the machine. -/
inductive Command where
  /-- Starts an activation, from the card that a host means by an instance id. -/
  | start (groups : List Group) (source : Option String)
  /-- Answers the request by instance ids. -/
  | resume (selection : List String)
  /-- Cancels the request. -/
  | cancel
  /-- Asks which effects are queued. -/
  | preview
  deriving Inhabited

/-- The answer to a command. -/
inductive Reply where
  /-- Where the activation stands. -/
  | outcome (o : Outcome)
  /-- The queued effects. -/
  | queued (effects : List Pending)
  deriving Inhabited

/-- An observer that calls the machine when an event happens for the `nth` time. -/
structure StandingOrder where
  /-- Which of the orders it is; its reports name it so. -/
  serial : Nat := 0
  /-- When the observer listens. -/
  moment : Moment
  /-- For which of these events it waits. -/
  nth : Int := 1
  /-- How many of them there were. -/
  seen : Int := 0
  /-- What it calls then. -/
  command : Command
  deriving Inhabited

/-- An observer of the machine. -/
inductive Observer where
  /-- Keeps every event. -/
  | recorder
  /-- Calls the machine at an event. -/
  | order (o : StandingOrder)
  deriving Inhabited

/-- Whether an observer is a standing order. -/
def Observer.isOrder : Observer → Bool
  | .recorder => false
  | .order _ => true

/-- What came of a standing order, with the boosts at the time. -/
structure Report where
  /-- Which of the orders it is about. -/
  serial : Nat
  /-- The answer or the error. -/
  answer : Except EngineError Reply
  /-- The boosts when the call ended. -/
  boosts : Boosts

/-- The machine. -/
structure Machine where
  /-- What effects act on. -/
  table : Table
  /-- Where the machine stands. -/
  phase : Phase := .idle
  /-- The results of the activation so far. -/
  results : ResultStack := {}
  /-- The effects still to be carried out. -/
  queue : List Pending := []
  /-- The effect in work. -/
  current : Option Pending := none
  /-- The request that waits for an answer. -/
  request : Option TargetRequest := none
  /-- The card that the activation came from. -/
  source : Option Card := none
  /-- The number of the activation. -/
  activation : Nat := 0
  /-- The observers, in the order in which they are told. -/
  observers : List Observer := []
  /-- What the recorder kept, oldest first. -/
  record : List Event := []
  /-- What came of standing orders, in the order in which their calls ended. -/
  reports : List Report := []
  deriving Inhabited

namespace Machine

/-- Whether an activation is in flight. -/
def isBusy (m : Machine) : Bool := m.phase ≠ .idle && m.phase ≠ .completed

/-- Where the activation stands. -/
def outcome (m : Machine) : Outcome where
  phase := m.phase
  results := m.results.items
  request := m.request
  source := m.source

/-- The effects that are queued, the one that waits for targets first. -/
def preview (m : Machine) : List Pending :=
  match m.current with
  | some p => if m.phase = .awaitingTarget then p :: m.queue else m.queue
  | none => m.queue

end Machine

/-- A call of the machine, which may fail. A failed call keeps what was done before it failed. -/
abbrev Run := ExceptT EngineError (StateM Machine)

namespace Run

/-- Acts on the table. -/
def play (action : Play α) : Run α := do
  let m ← get
  let done := action.run.run m.table
  set { m with table := done.2 }
  match done.1 with
  | .ok a => pure a
  | .error f => throw (.fault f)

/-- Acts on the table; if the action fails, it answers `otherwise`. -/
def attempt (action : Play α) (otherwise : α) : Run α := do
  let m ← get
  let done := action.run.run m.table
  set { m with table := done.2 }
  match done.1 with
  | .ok a => pure a
  | .error _ => pure otherwise

end Run

end Treasury
