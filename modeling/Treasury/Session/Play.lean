import Treasury.Activation.Observers
import Treasury.Game.Deck
import Treasury.Game.Economy
import Treasury.Session.Error
import Treasury.Summary

/-!
# Sessions

A session is one game in progress: a machine with a recorder among its observers, and what its
player may do next. Playing a card costs an action and moves the card from the hand to the play area
before its effects run. An event happens if its trigger conditions hold; one with choices runs the
effects of the chosen one. The player may ask beforehand whether an event may happen and what there
is to choose.
-/

namespace Treasury

open Numeric (Binary64)

/-- What the player of a session may do next. -/
inductive Status where
  /-- Play cards and trigger events. -/
  | active
  /-- Pick targets. -/
  | awaitingTarget
  /-- Nothing. -/
  | ended
  deriving DecidableEq, Repr, Inhabited

/-- The word for a status. -/
def Status.name : Status → String
  | .active => "active"
  | .awaitingTarget => "awaiting_target"
  | .ended => "ended"

/-- A game in progress. -/
structure Session where
  /-- The id of the session. -/
  id : String
  /-- The machine that resolves its activations. -/
  machine : Machine
  /-- What the player may do next. -/
  status : Status := .active
  /-- The outcome of the latest call that had one. -/
  last : Option Outcome := none
  /-- When the session was created. -/
  createdAt : Binary64
  /-- The seed that it was created with. -/
  seed : Option Int
  /-- Whether its store still gives it out. -/
  stored : Bool := true
  deriving Inhabited

/-- One option of an event as the player is told of it. -/
structure ChoiceInfo where
  /-- The id by which the player chooses it. -/
  id : String
  /-- The text shown to players. -/
  text : String
  /-- Whether it may be chosen now. -/
  canSelect : Bool
  deriving DecidableEq, Repr, Inhabited

/-- A call of a session, which may fail. A failed call keeps what was done before it failed. -/
abbrev Call := ExceptT SessionError (StateM Session)

namespace Session

/-- The state of the game. -/
def game (s : Session) : GameState := s.machine.table.game

/-- Whether the session goes on. -/
def isActive (s : Session) : Bool := s.status ≠ .ended

/-- The summary of a session. -/
def summary (s : Session) : Json := .obj [
  ("session_id", .str s.id),
  ("state", .str s.status.name),
  ("game_state", s.game.summary),
  ("pending_request", TargetRequest.summary? s.game.boosts s.machine.request),
  ("pending_effects", .list (·.summary) s.machine.preview)]

/-- The status after a call with the given outcome. -/
def statusAfter (o : Outcome) : Status :=
  if o.phase = .awaitingTarget then .awaitingTarget else .active

/-- Calls the engine and takes down the outcome. -/
def engine (r : Rules) (call : Engine.Tell → Run Outcome) : Call Outcome := do
  let s ← get
  let done := s.machine.run r call
  set { s with machine := done.2 }
  match done.1 with
  | .error e => throw (.engine e)
  | .ok o =>
    modify fun s => { s with last := some o, status := statusAfter o }
    return o

/-- Acts on the table. -/
def act (action : Play α) : Call α := do
  let s ← get
  let done := action.run.run s.machine.table
  set { s with machine := { s.machine with table := done.2 } }
  match done.1 with
  | .error f => throw (.engine (.fault f))
  | .ok a => return a

/-- Fails unless the player may play cards and trigger events. -/
def ready : Call Unit := do
  match (← get).status with
  | .active => pure ()
  | .awaitingTarget => throw .selectionPending
  | .ended => throw .ended

/-- The hand card of the given instance id, with its definition, if it may be played. -/
def playable (s : Session) (r : Rules) (instanceId : String) :
    Except SessionError (Card × CardDefinition) :=
  match s.game.zones.hand.named? instanceId with
  | none => .error (.notInHand instanceId)
  | some c =>
    match r.catalog.card? c.cardId with
    | none => .error (.notDefined c.cardId)
    | some d => if d.isAction then .ok (c, d) else .error (.notAnAction d.name d.kind)

/-- Plays an action card from the hand. -/
def play (r : Rules) (instanceId : String) : Call Outcome := do
  ready
  match (← get).playable r instanceId with
  | .error e => throw e
  | .ok (c, d) =>
    -- The action is spent before the card moves, and both before any effect is carried out.
    if ← act (Economy.consumeAction r) then
      act (Deck.play r c)
      engine r fun tell => Engine.start tell r d.effects (some c)
    else throw .noActions

/-- Whether conditions hold outside of an activation. -/
def meets (s : Session) (r : Rules) (conditions : List Condition) : Bool :=
  Condition.allHold conditions r s.game {}

/-- The event of the given id. -/
def event (r : Rules) (eventId : String) : Except SessionError EventDefinition :=
  match r.catalog.event? eventId with
  | some e => .ok e
  | none => .error (.noSuchEvent eventId)

/-- Whether an event may happen now. -/
def available (r : Rules) (e : EventDefinition) : Call Bool := return (← get).meets r e.triggers

/-- The options of an event, with whether each of them may be chosen now. -/
def choices (r : Rules) (eventId : String) : Call (List ChoiceInfo) := do
  let s ← get
  match event r eventId with
  | .error e => throw e
  | .ok e =>
    return e.choices.map fun c =>
      { id := c.id, text := c.text, canSelect := s.meets r c.requirements }

/-- What an event would do, if it may happen with the given choice. -/
def groupsOf (s : Session) (r : Rules) (eventId : String) (choiceId : Option String) :
    Except SessionError (List Group) := do
  let e ← event r eventId
  if !s.meets r e.triggers then throw (.notTriggered eventId)
  else if !e.hasChoices then return e.effects
  else
    match choiceId with
    | none => throw (.choiceNeeded eventId)
    | some choiceId =>
      match e.choice? choiceId with
      | none => throw (.noSuchChoice eventId choiceId)
      | some c =>
        if s.meets r c.requirements then return c.effects else throw (.choiceClosed choiceId)

/-- Triggers an event. -/
def trigger (r : Rules) (eventId : String) (choiceId : Option String) : Call Outcome := do
  ready
  match (← get).groupsOf r eventId choiceId with
  | .error e => throw e
  | .ok groups => engine r fun tell => Engine.start tell r groups none

/-- Picks targets by their instance ids. -/
def select (r : Rules) (ids : List String) : Call Outcome :=
  engine r fun tell => Engine.resume tell r ids

/-- Passes the effect that waits for targets over. -/
def cancel (r : Rules) : Call Outcome := engine r fun tell => Engine.cancel tell r

end Session

end Treasury
