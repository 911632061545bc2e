import Treasury.Api.Request
import Treasury.Session.Store

/-!
# Answering requests

Clients create sessions, play cards, trigger events and pick targets by requests. `respond` answers
one request and gives the store as it is afterwards. What a player does wrong is an answer with a
code; a fault of a value or a service is not an answer at all, nor is a refusal of a number that
JSON cannot show.
-/

namespace Treasury.Api

/-- An answer to a client. -/
structure Response where
  /-- The status code. -/
  status : Nat
  /-- The body. -/
  body : Json

/-- Why a request is not answered. -/
inductive Failure where
  /-- A value or a service failed. -/
  | engine (error : EngineError)
  /-- The answer would have to show an infinity or a NaN. -/
  | unwritable
  deriving DecidableEq, Repr

/-- The words for a failure. -/
def Failure.message? : Failure → Option String
  | .engine e => e.message?
  | .unwritable => some "Out of range float values are not JSON compliant"

/-- The title of the service. -/
def title : String := "Coffers Engine API"

/-- The version of the service. -/
def version : String := "0.1.0"

/-- The member that names the version of the interface. -/
def versionMember : String × Json := ("api_version", .str "v1")

/-- An answer without errors. -/
def okay (members : List (String × Json)) : Response := { status := 200, body := .obj members }

/-- An answer that something went wrong. -/
def problem (status : Nat) (code text : String) (details : Json) : Response where
  status
  body := .obj [
    ("error", .str text), ("error_code", .str code), ("details", details), versionMember]

/-- The answer that something is not there. -/
def notFound : Response := { status := 404, body := .obj [("detail", .str "Not Found")] }

/-- The answer that a route does not take the method. -/
def notAllowed : Response := { status := 405, body := .obj [("detail", .str "Method Not Allowed")] }

/-- The answer that the path is to be spelled in another way. -/
def redirected : Response := { status := 307, body := .null }

/-- The answer to a request whose body is not taken. It shows what is wrong, value by value. -/
def Refusal.answer : Refusal → Except Failure Response
  | .unreadable =>
    .ok { status := 400, body := .obj [("detail", .str "There was an error parsing the body")] }
  | .problems body ps =>
    let inBody (p : Problem) : Problem := { p with path := .field "body" :: p.path }
    if ps.all fun p => (p.subject? body).all Json.isFinite then
      .ok { status := 422, body := .obj [("detail", .list (fun p => (inBody p).toJson) ps)] }
    else .error .unwritable

/-- The answer that there is no such session. -/
def noSession (id : String) : Response :=
  problem 404 "SESSION_NOT_FOUND" s!"Session {id} not found" .null

/-- The answer for an error of a session, unless it is a fault. -/
def ofError : SessionError → Except Failure Response
  | .engine (.invalidSelection e) =>
    .ok (problem 400 "INVALID_SELECTION" e.message
      (.obj [("invalid_ids", .list .str e.invalidIds)]))
  | .engine .nothingPending =>
    .ok (problem 409 "NO_PENDING_SELECTION" (words (.engine .nothingPending)) .null)
  | .engine (.inProgress phase) =>
    .ok (problem 409 "ACTIVATION_IN_PROGRESS" (words (.engine (.inProgress phase))) .null)
  | .engine e => .error (.engine e)
  | .selectionPending => .ok (problem 409 "ACTIVATION_IN_PROGRESS" (words .selectionPending) .null)
  | .ended => .ok (problem 400 "VALIDATION_ERROR" (words .ended) .null)
  | e@(.notInHand _) | e@(.notDefined _) | e@(.notAnAction ..) | e@.noActions =>
    .ok (problem 400 "CARD_NOT_PLAYABLE" (words e) .null)
  | e@(.noSuchEvent _) | e@(.notTriggered _) | e@(.choiceNeeded _) | e@(.noSuchChoice ..)
  | e@(.choiceClosed _) => .ok (problem 400 "EVENT_NOT_AVAILABLE" (words e) .null)
where
  /-- The words for an error. -/
  words (e : SessionError) : String := e.message?.getD ""

/-- The answer that shows a session. -/
def shown (s : Session) : Response := okay [
  ("session_id", .str s.id),
  ("status", .str s.status.name),
  ("game_state", s.game.summaryWith Json.ofFinite),
  ("pending_request", TargetRequest.summary? s.game.boosts s.machine.request),
  ("pending_effects", .list (·.summary) s.machine.preview),
  versionMember]

/-- The answer that shows the outcome of a call. -/
def activated (s : Session) (o : Outcome) : Response :=
  okay ([("session_id", .str s.id)] ++ o.members s.game.boosts
    ++ [("game_state", s.game.summaryWith Json.ofFinite), versionMember])

/-- An event with what the player is told of it: whether it may happen, and its options. -/
def eventInfo (r : Rules) (eventId : String) :
    Call (EventDefinition × Bool × List ChoiceInfo) := do
  match Session.event r eventId with
  | .error e => throw e
  | .ok e =>
    let choices ← Session.choices r eventId
    return (e, ← Session.available r e, choices)

/-- The answer that shows an event in a session. -/
def shownEvent (s : Session) : EventDefinition × Bool × List ChoiceInfo → Response
  | (e, available, choices) => okay [
    ("session_id", .str s.id),
    ("event_id", .str e.id),
    ("name", .str e.name),
    ("description", .str e.description),
    ("available", .bool available),
    ("choices", .list (fun c => .obj [
      ("choice_id", .str c.id),
      ("text", .str c.text),
      ("can_select", .bool c.canSelect)]) choices),
    versionMember]

/-- What comes of a request: an answer or a fault, and the store afterwards. -/
abbrev Handled := Except Failure Response × Store

/-- Goes on with what was read from a body, unless that has problems. -/
def withBody (st : Store) (body : Except Refusal α) (next : α → Handled) : Handled :=
  match body with
  | .ok a => next a
  | .error refusal => (refusal.answer, st)

/-- Goes on with the session of the given id, unless there is none. -/
def withSession (st : Store) (id : String) (next : Session → Handled) : Handled :=
  match st.get? id with
  | some s => next s
  | none => (.ok (noSession id), st)

/-- Answers with what a call of a session comes to. -/
def calling (st : Store) (id : String) (shown : Session → α → Response) (call : Call α) :
    Handled :=
  withSession st id fun s =>
    let done := call.run.run s
    let answer := match done.1 with
      | .ok a => .ok (shown done.2 a)
      | .error e => ofError e
    (answer, st.update done.2)

/-- The answer that shows the service. -/
def shownService : Response := okay [
  ("name", .str title), ("version", .str version), ("environment", .str "development"),
  ("docs", .str "/api/docs"), ("health", .str "/api/v1/health")]

/-- The answer that the service is well. -/
def healthy : Response := okay [
  ("status", .str "healthy"), ("service", .str "coffers-engine"), ("version", .str version)]

/-- Answers a request. -/
def respond (st : Store) (q : Request) : Handled :=
  match Route.ofPath? q.path with
  | none =>
    let known := (Route.ofPath? (respelled q.path)).isSome
    (.ok (if known then redirected else notFound), st)
  | some route =>
    match route, q.method with
    | .root, "GET" => (.ok shownService, st)
    | .health, "GET" => (.ok healthy, st)
    | .sessions, "GET" =>
      let ids := st.active
      (.ok (okay [("sessions", .list .str ids), ("count", .int ids.length)]), st)
    | .sessions, "POST" =>
      withBody st (optional q.body seedOf none) fun seed =>
        let made := st.create seed none
        (.ok (shown made.1), made.2)
    | .session id, "GET" => withSession st id fun s => (.ok (shown s), st)
    | .session id, "DELETE" =>
      let closed := st.close id
      (.ok (okay [("success", .bool closed.1), ("session_id", .str id)]), closed.2)
    | .play id, "POST" =>
      withBody st (required q.body instanceIdOf) fun card =>
        calling st id activated (Session.play st.rules card)
    | .event id eventId, "GET" => calling st id shownEvent (eventInfo st.rules eventId)
    | .event id eventId, "POST" =>
      withBody st (optional q.body choiceIdOf none) fun choice =>
        calling st id activated (Session.trigger st.rules eventId choice)
    | .targets id, "POST" =>
      withBody st (required q.body instanceIdsOf) fun ids =>
        calling st id activated (Session.select st.rules ids)
    | .cancel id, "POST" => calling st id activated (Session.cancel st.rules)
    | _, _ => (.ok notAllowed, st)

end Treasury.Api
