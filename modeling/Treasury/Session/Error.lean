import Treasury.Activation.Error
import Treasury.Card.Kind

/-!
# Errors of a session

What a player can do wrong in a session, besides what the engine refuses.
-/

namespace Treasury

/-- Why a call of a session fails. -/
inductive SessionError where
  /-- The session has ended. -/
  | ended
  /-- The player has to pick targets first. -/
  | selectionPending
  /-- The card to be played is not in hand. -/
  | notInHand (instanceId : String)
  /-- The card to be played is not defined. -/
  | notDefined (cardId : String)
  /-- The card to be played is not an action card. -/
  | notAnAction (name : String) (kind : CardKind)
  /-- No actions are left. -/
  | noActions
  /-- There is no such event. -/
  | noSuchEvent (eventId : String)
  /-- The event cannot happen now. -/
  | notTriggered (eventId : String)
  /-- The event needs a choice. -/
  | choiceNeeded (eventId : String)
  /-- The event has no such choice. -/
  | noSuchChoice (eventId choiceId : String)
  /-- The choice cannot be made now. -/
  | choiceClosed (choiceId : String)
  /-- The engine refused the call or failed. -/
  | engine (error : EngineError)
  deriving DecidableEq, Repr

namespace SessionError

/-- The words for a failed call, unless it failed by a fault without words. -/
def message? : SessionError → Option String
  | .ended => some "Session has ended"
  | .selectionPending => some "A target selection is pending"
  | .notInHand instanceId => some s!"Card {instanceId} is not in hand"
  | .notDefined cardId => some s!"Card {cardId} has no definition"
  | .notAnAction name kind => some s!"{name} is a {Vocabulary.name kind} card"
  | .noActions => some "No actions remaining"
  | .noSuchEvent eventId => some s!"Unknown event {eventId}"
  | .notTriggered eventId => some s!"Trigger conditions for {eventId} are not met"
  | .choiceNeeded eventId => some s!"Event {eventId} requires a choice"
  | .noSuchChoice eventId choiceId => some s!"Event {eventId} has no choice {choiceId}"
  | .choiceClosed choiceId => some s!"Requirements for choice {choiceId} are not met"
  | .engine error => error.message?

/-- Whether a player is told about the error; the others are faults. -/
def isRefusal : SessionError → Bool
  | .engine error => error.isRefusal
  | _ => true

end SessionError

end Treasury
