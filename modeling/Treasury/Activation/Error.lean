import Treasury.Game.Table
import Treasury.Text.Quoted

/-!
# Errors of the engine

What a caller of the engine can do wrong, and the faults of values and services that reach a caller.
A refused call changes nothing, and a call that ends in a fault keeps what was done before.
-/

namespace Treasury

/-- Where the engine stands. -/
inductive Phase where
  /-- Nothing has run yet. -/
  | idle
  /-- Groups are evaluated into the queue. -/
  | expanding
  /-- Targets are collected without asking. -/
  | autoTargeting
  /-- The player has to pick targets. -/
  | awaitingTarget
  /-- An effect is carried out. -/
  | dispatching
  /-- The queue is empty. -/
  | completed
  deriving DecidableEq, Repr, Inhabited

/-- The word for a phase. -/
def Phase.name : Phase → String
  | .idle => "idle"
  | .expanding => "expanding"
  | .autoTargeting => "auto_targeting"
  | .awaitingTarget => "awaiting_target"
  | .dispatching => "dispatching"
  | .completed => "completed"

/-- What is wrong with a selection. -/
inductive SelectionError where
  /-- Some ids are not those of candidates. -/
  | notEligible (ids : List String)
  /-- An id is given more than once. -/
  | repeated
  /-- More ids are given than cards may be picked. -/
  | tooMany (given : Nat) (allowed : Int)
  deriving DecidableEq, Repr

namespace SelectionError

/-- The words for a wrong selection. -/
def message : SelectionError → String
  | .notEligible ids => s!"Cards are not eligible targets: {Text.quotedList ids}"
  | .repeated => "A card was selected more than once"
  | .tooMany given allowed => s!"Selected {given} cards, at most {allowed} allowed"

/-- The given ids that are not those of candidates. -/
def invalidIds : SelectionError → List String
  | .notEligible ids => ids
  | _ => []

end SelectionError

/-- Why a call of the engine fails. -/
inductive EngineError where
  /-- Targets were given while none were asked for. -/
  | nothingPending
  /-- The targets that were given are refused. -/
  | invalidSelection (error : SelectionError)
  /-- An activation is in flight, in the given phase. -/
  | inProgress (phase : Phase)
  /-- The effect that waits for targets was discarded. -/
  | noCurrentEffect
  /-- A value or a service failed. -/
  | fault (fault : Fault)
  deriving DecidableEq, Repr

namespace EngineError

/-- Whether the error is one that callers are told to expect. -/
def isRefusal : EngineError → Bool
  | .nothingPending | .invalidSelection _ | .inProgress _ => true
  | _ => false

/-- The words for a refused call. -/
def message? : EngineError → Option String
  | .nothingPending => some "No target selection pending"
  | .invalidSelection e => some e.message
  | .inProgress phase => some s!"Activation already in progress (state: {phase.name})"
  | .noCurrentEffect => none
  | .fault .sampleSize => some "Sample larger than population or is negative"
  | .fault .notInHand => some "list.remove(x): x not in list"
  | .fault _ => none

end EngineError

end Treasury
