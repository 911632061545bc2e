import Treasury.Definitions.Field
import Treasury.Json.Reader
import Treasury.Text.Encoding

/-!
# Requests of clients

A request has a method, a path and the bytes of a body. The path says what the request is about, its
`Route`; the body is JSON and describes an object whose members are read by the rules of documents.
A body that is not taken is a `Refusal`, which names the problems.
-/

namespace Treasury.Api

/-- A request of a client. -/
structure Request where
  /-- The method. -/
  method : String
  /-- The path as it is sent. -/
  path : String
  /-- The bytes of the body; none stand for no body. -/
  body : ByteArray := .empty

/-- What a request is about. -/
inductive Route where
  /-- The service as such. -/
  | root
  /-- Whether the service is well. -/
  | health
  /-- The sessions. -/
  | sessions
  /-- One session. -/
  | session (id : String)
  /-- Playing a card. -/
  | play (id : String)
  /-- One event in a session. -/
  | event (id eventId : String)
  /-- Picking targets. -/
  | targets (id : String)
  /-- Passing an effect over. -/
  | cancel (id : String)
  deriving DecidableEq, Repr

/-- The parts of a path between its slashes. -/
def segments (path : String) : List String := path.splitOn "/"

/-- The route of the parts of a path. -/
def Route.ofSegments? : List String → Option Route
  | ["", ""] => some .root
  | ["", "api", "v1", "health"] => some .health
  | ["", "api", "v1", "sessions"] => some .sessions
  | ["", "api", "v1", "sessions", id] => if id = "" then none else some (.session id)
  | ["", "api", "v1", "sessions", id, "play"] => if id = "" then none else some (.play id)
  | ["", "api", "v1", "sessions", id, "targets"] => if id = "" then none else some (.targets id)
  | ["", "api", "v1", "sessions", id, "cancel"] => if id = "" then none else some (.cancel id)
  | ["", "api", "v1", "sessions", id, "events", eventId] =>
    if id = "" || eventId = "" then none else some (.event id eventId)
  | _ => none

/-- A path without the line break at its end. -/
def withoutBreak (path : String) : String :=
  match path.toList.reverse with
  | '\n' :: rest => .ofList rest.reverse
  | _ => path

/-- The route of a path. A line break at the end does not matter, unless it belongs to an id. -/
def Route.ofPath? (path : String) : Option Route :=
  (ofSegments? (segments path)).or (ofSegments? (segments (withoutBreak path)))

/-- Another spelling of a path: without the slashes at its end or, if there is none, with one. -/
def respelled (path : String) : String :=
  match path.toList.reverse with
  | '/' :: rest => .ofList (rest.dropWhile (· = '/')).reverse
  | _ => path ++ "/"

/-- Why a body is not taken. -/
inductive Refusal where
  /-- Its bytes are not text, a number in it is too long, or it is nested too deep. -/
  | unreadable
  /-- It has problems. The JSON value is what they are problems of, null where there is none. -/
  | problems (body : Json) (problems : List Problem)
  deriving Repr

/-- The JSON value of a body, if there is a body. -/
def bodyJson? (bytes : ByteArray) : Except Refusal (Option Json) :=
  if bytes.isEmpty then .ok none
  else
    match Text.ofBytes? bytes with
    | none => .error .unreadable
    | some text =>
      match Json.read text with
      | .ok j => .ok (some j)
      | .error (.misread _ position) =>
        .error (.problems .null [{ path := [.item position], complaint := .notJson }])
      | .error (.tooLong _) | .error .tooDeep => .error .unreadable

/-- Reads the members of a body that is an object. -/
def ofMembers (read : Field.Members → Checked α) (body : Json) : Except Refusal α :=
  match body with
  | .obj members =>
    match read members with
    | .good a => .ok a
    | .bad ps => .error (.problems body ps)
  | _ => .error (.problems body [{ path := [], complaint := .notBody }])

/-- Reads a body that has to be there. -/
def required (bytes : ByteArray) (read : Field.Members → Checked α) : Except Refusal α := do
  match ← bodyJson? bytes with
  | some j => ofMembers read j
  | none => throw (.problems .null [{ path := [], complaint := .missing }])

/-- Reads a body that may be missing or the null value. -/
def optional (bytes : ByteArray) (read : Field.Members → Checked α) (default : α) :
    Except Refusal α := do
  match ← bodyJson? bytes with
  | none | some .null => return default
  | some j => ofMembers read j

/-- The seed that the body of a request for a new session may name. -/
def seedOf (o : Field.Members) : Checked (Option Int) :=
  Field.optional o "random_seed" (Field.orNull fun j => .ofExcept (Field.int j)) none

/-- The card that the body of a request to play names. -/
def instanceIdOf (o : Field.Members) : Checked String :=
  Field.required o "instance_id" fun j => .ofExcept (Field.text j)

/-- The choice that the body of a request for an event may name. -/
def choiceIdOf (o : Field.Members) : Checked (Option String) :=
  Field.optional o "choice_id" (Field.orNull fun j => .ofExcept (Field.text j)) none

/-- The cards that the body of a request to pick targets names. -/
def instanceIdsOf (o : Field.Members) : Checked (List String) :=
  Field.optional o "instance_ids" (Field.listOf fun j => .ofExcept (Field.text j)) []

end Treasury.Api
