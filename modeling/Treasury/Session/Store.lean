import Treasury.Session.Play
import Treasury.Starter.Cards
import Treasury.Starter.Setup

/-!
# The store of sessions

A store creates sessions, gives them out by id and ends them. Nothing is kept beyond the life of the
store. A session that is ended is given out no more, but whoever holds it may still ask it for
things, so the store remembers every session that it created.
-/

namespace Treasury

open Numeric (Binary64)
open Treasury.Random (Dice)

/-- A store of sessions. -/
structure Store where
  /-- What the games of all sessions go by. -/
  rules : Rules := { catalog := Starter.catalog }
  /-- Every session that was created, in order. -/
  sessions : List Session := []
  /-- The time in seconds. -/
  now : Binary64 := .zero false
  /-- What dice are seeded with where neither the caller nor the configuration gives a seed. -/
  entropy : Int := 0
  /-- The id that the `n`-th session gets. -/
  newId : Nat → String := fun n => s!"session-{n}"
  deriving Inhabited

namespace Store

/-- A new session with a fresh id: of the given game or, without one, of the starter game. The seed
counts for the start of the game and, anew, for the dice of the engine. -/
def create (st : Store) (seed : Option Int) (game : Option GameState) : Session × Store :=
  let seed := seed.or st.rules.config.seed
  let session : Session :=
    { id := st.newId (st.sessions.length + 1)
      machine :=
        { table :=
            { game := game.getD (Starter.setup seed st.entropy {})
              dice := .seeded (seed.getD st.entropy) }
          observers := [.recorder] }
      createdAt := st.now
      seed }
  (session, { st with sessions := st.sessions ++ [session], entropy := st.entropy + 1 })

/-- The session of the given id, if the store still gives it out. -/
def get? (st : Store) (id : String) : Option Session :=
  st.sessions.find? fun s => s.stored && s.id = id

/-- The store after a session changed. -/
def update (st : Store) (s : Session) : Store :=
  { st with sessions := st.sessions.map fun t => if t.id = s.id then s else t }

/-- The store after the given sessions, as far as it still gives them out, are ended. -/
def retire (st : Store) (p : Session → Bool) : Store :=
  { st with
    sessions := st.sessions.map fun s =>
      if s.stored && p s then { s with status := .ended, stored := false } else s }

/-- Ends the session of the given id, and says whether there was one. -/
def close (st : Store) (id : String) : Bool × Store :=
  ((st.get? id).isSome, st.retire (·.id = id))

/-- The ids of the sessions that go on, in the order in which they were created. -/
def active (st : Store) : List String :=
  (st.sessions.filter fun s => s.stored && s.isActive).map (·.id)

/-- Whether a session is older than a number of seconds. -/
def isStale (st : Store) (maxAge : Int) (s : Session) : Bool :=
  (st.now - s.createdAt).exceeds maxAge

/-- Ends the sessions that are older than a number of seconds, and says how many there were. -/
def cleanup (st : Store) (maxAge : Int) : Nat × Store :=
  (st.sessions.countP fun s => s.stored && st.isStale maxAge s, st.retire (st.isStale maxAge))

/-- The store at a later time. -/
def advance (st : Store) (seconds : Binary64) : Store := { st with now := st.now + seconds }

/-- Ending a session leaves none of its id. -/
theorem get?_close (st : Store) (id : String) : (st.close id).2.get? id = none := by
  simp only [close, retire, get?, List.find?_eq_none, List.mem_map, Bool.and_eq_true,
    decide_eq_true_eq, not_and]
  rintro s ⟨t, -, rfl⟩ hs
  by_cases h : t.stored = true ∧ t.id = id <;> simp_all

end Store

end Treasury
