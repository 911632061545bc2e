import Mathlib.Data.List.Nodup
import Treasury.Proofs.Game.Ids
import Treasury.Proofs.Session.Course
import Treasury.Proofs.Session.Ending

/-!
# Which sessions a store gives out

A store remembers every session that it created, and marks those that it still gives out. When it
lists them it asks besides whether they go on, and that is something that calls of the sessions
write to, also those of sessions that were ended. So that the list is nonetheless that of the
sessions that were created and not ended since is a matter of all calls before.

* `StoreCall` and `Store.afterAll` are the runs: of the store, of time, and of the sessions that it
  ever created.
* `Birth.isEndedBy` and `lasting` say, by nothing but the calls and the time, which sessions there
  are to be.
* `Store.given_after` is the step, `Store.given_afterAll` the run, and `Store.Orderly` the invariant
  that both go by.
* `Store.givesOut_afterAll` says what the store answers then.
-/

namespace Treasury

open Numeric (Binary64)

/-! ## Runs of a store -/

/-- Something that is done with a store, or with a session that it created. -/
inductive StoreCall where
  /-- Creates a session. -/
  | create (seed : Option Int) (game : Option GameState)
  /-- Ends the session of an id. -/
  | close (id : String)
  /-- Ends the sessions that are older than a number of seconds. -/
  | cleanup (maxAge : Int)
  /-- Lets time pass. -/
  | advance (seconds : Binary64)
  /-- Makes a call of the session that was created after `n` others, whether or not it was ended. -/
  | call (n : Nat) (c : SessionCall)
  deriving Inhabited

/-- The time after a call. -/
def StoreCall.time (now : Binary64) : StoreCall → Binary64
  | advance seconds => now + seconds
  | _ => now

namespace Store

/-- The store after a call. -/
def after (st : Store) : StoreCall → Store
  | .create seed game => (st.create seed game).2
  | .close id => (st.close id).2
  | .cleanup maxAge => (st.cleanup maxAge).2
  | .advance seconds => st.advance seconds
  | .call n c =>
    match st.sessions[n]? with
    | some s => st.update (s.after st.rules c)
    | none => st

/-- The store after calls one after another. -/
def afterAll (st : Store) (calls : List StoreCall) : Store := calls.foldl after st

end Store

/-! ## What there is to be -/

/-- What is known of a session from the time when it was created. -/
structure Birth where
  /-- The id of the session. -/
  id : String
  /-- When it was created. -/
  createdAt : Binary64
  deriving DecidableEq, Inhabited

namespace Birth

/-- Whether a call ends the session: one that ends sessions of its id, or of its age. -/
def endedBy (b : Birth) (now : Binary64) : StoreCall → Bool
  | .close id => b.id = id
  | .cleanup maxAge => (now - b.createdAt).exceeds maxAge
  | _ => false

/-- Whether one of some calls ends the session, if the first of them is made at the given time. -/
def isEndedBy (b : Birth) : Binary64 → List StoreCall → Bool
  | _, [] => false
  | now, c :: rest => b.endedBy now c || b.isEndedBy (c.time now) rest

end Birth

/-- The sessions that calls create, in order, each with the calls after that. Some were made before,
and the first call is made at the given time. -/
def births (newId : Nat → String) : Nat → Binary64 → List StoreCall →
    List (Birth × List StoreCall)
  | made, now, .create _ _ :: rest =>
    (⟨newId (made + 1), now⟩, rest) :: births newId (made + 1) now rest
  | made, now, c :: rest => births newId made (c.time now) rest
  | _, _, [] => []

/-- The sessions that calls create and that none of the calls after that ends, in order. -/
def lasting (newId : Nat → String) (made : Nat) (now : Binary64) (calls : List StoreCall) :
    List Birth :=
  ((births newId made now calls).filter fun x => !x.1.isEndedBy x.1.createdAt x.2).map Prod.fst

/-! ## Calls of a session -/

namespace Session

variable {r : Rules}

/-- What the store goes by of a session stays as it is, and if the session goes on it does so
still. -/
structure Steady (s s' : Session) : Prop where
  /-- The session keeps its id. -/
  id : s'.id = s.id
  /-- It keeps the time of its creation. -/
  createdAt : s'.createdAt = s.createdAt
  /-- The store gives it out as before. -/
  stored : s'.stored = s.stored
  /-- If it goes on, it does so still. -/
  isActive : s.isActive = true → s'.isActive = true

instance : IsPreorder Session Steady where
  refl _ := ⟨rfl, rfl, rfl, fun h => h⟩
  trans _ _ _ h k := ⟨k.id.trans h.id, k.createdAt.trans h.createdAt, k.stored.trans h.stored,
    fun hs => k.isActive (h.isActive hs)⟩

theorem steady_engine (call : Engine.Tell → Run Outcome) : Keeps Steady (engine r call) := by
  intro s
  rw [exec_engine]
  rcases s.machine.run r call with ⟨e | o, m⟩
  · exact ⟨rfl, rfl, rfl, fun h => h⟩
  · exact ⟨rfl, rfl, rfl, fun _ => decide_eq_true (statusAfter_ne_ended o)⟩

theorem steady_act {α : Type} (x : Play α) : Keeps Steady (act x) := by
  intro s
  unfold act
  rw [exec_get_bind]
  dsimp only
  rw [exec_set_bind]
  rcases x.run.run s.machine.table with ⟨fault | a, t⟩
  · exact ⟨rfl, rfl, rfl, fun h => h⟩
  · exact ⟨rfl, rfl, rfl, fun h => h⟩

theorem steady_play (instanceId : String) : Keeps Steady (play r instanceId) := by
  refine .bind keeps_ready fun _ => .bind .get fun s => ?_
  split
  · exact .throw _
  · exact .bind (steady_act _) fun _ =>
      .ite (.bind (steady_act _) fun _ => steady_engine _) (.throw _)

/-- Whatever the call of a session, it does not end the session. -/
theorem steady_after (s : Session) (c : SessionCall) : Steady s (s.after r c) := by
  cases c with
  | play instanceId => exact steady_play instanceId s
  | trigger eventId choiceId => exact keeps_trigger (fun _ => steady_engine _) eventId choiceId s
  | select ids => exact steady_engine _ s
  | cancel => exact steady_engine _ s
  | start groups source => exact ⟨rfl, rfl, rfl, fun h => h⟩
  | command c => exact ⟨rfl, rfl, rfl, fun h => h⟩

/-- What is known of a session from the time when it was created. -/
def birth (s : Session) : Birth := ⟨s.id, s.createdAt⟩

theorem Steady.birth {s s' : Session} (h : Steady s s') : s'.birth = s.birth := by
  rw [Session.birth, h.id, h.createdAt]
  rfl

end Session

/-! ## One call -/

namespace Store

variable {st : Store}

/-- A call of a session comes to an update of that session, if there is one. -/
theorem after_call (st : Store) (n : Nat) (c : SessionCall) : st.after (.call n c) = st ∨
    ∃ s ∈ st.sessions, ∃ s', s.Steady s' ∧ st.after (.call n c) = st.update s' := by
  rcases hs : st.sessions[n]? with _ | s
  · left
    simp only [after, hs]
  · right
    refine ⟨s, List.mem_of_getElem? hs, s.after st.rules c, s.steady_after c, ?_⟩
    simp only [after, hs]

/-- The sessions that a store gives out. -/
def given (st : Store) : List Birth := (st.sessions.filter (·.stored)).map (·.birth)

/-- The sessions were given the ids in order, and those that are given out go on. -/
structure Orderly (st : Store) : Prop where
  /-- The ids are those that new sessions get. -/
  ids : st.sessions.map (·.id) = (List.range st.sessions.length).map fun n => st.newId (n + 1)
  /-- What is given out goes on. -/
  isActive : ∀ s ∈ st.sessions, s.stored = true → s.isActive = true

theorem Orderly.of_sessions_eq_nil (h : st.sessions = []) : st.Orderly where
  ids := by rw [h]; rfl
  isActive := by simp [h]

/-- No two sessions have one id. -/
theorem Orderly.nodup (h : st.Orderly) (hids : st.newId.Injective) :
    (st.sessions.map (·.id)).Nodup := by
  rw [h.ids]
  exact List.nodup_range.map fun _ _ heq => Nat.succ_injective (hids heq)

/-- Changes of the sessions that leave be what the store goes by leave it in order. -/
theorem Orderly.map (h : st.Orderly) {f : Session → Session} (hid : ∀ s, (f s).id = s.id)
    (hactive : ∀ s ∈ st.sessions, (s.stored = true → s.isActive = true) →
      (f s).stored = true → (f s).isActive = true) :
    { st with sessions := st.sessions.map f }.Orderly where
  ids := by
    have hsame : (fun s : Session => s.id) ∘ f = fun s => s.id := funext hid
    rw [List.map_map, hsame, h.ids, List.length_map]
  isActive := by
    rw [List.forall_mem_map]
    exact fun s hs => hactive s hs (h.isActive s hs)

theorem Orderly.create (h : st.Orderly) (seed : Option Int) (game : Option GameState) :
    (st.create seed game).2.Orderly where
  ids := by
    simp only [Store.create, List.map_append, List.map_singleton, List.length_append,
      List.length_singleton, List.range_succ, h.ids]
  isActive := by
    simp only [Store.create, List.forall_mem_append, List.forall_mem_singleton]
    exact ⟨h.isActive, fun _ => rfl⟩

theorem Orderly.retire (h : st.Orderly) (p : Session → Bool) : (st.retire p).Orderly := by
  refine h.map (fun s => ?_) fun s _ hs => ?_
  · split
    · rfl
    · rfl
  · split
    · exact fun hstored => nomatch hstored
    · exact hs

theorem Orderly.update (h : st.Orderly) {s s' : Session} (hs : s ∈ st.sessions)
    (hsteady : s.Steady s') : (st.update s').Orderly := by
  refine h.map (fun t => ?_) fun t _ ht => ?_
  · split
    · next hid => exact hid.symm
    · rfl
  · split
    · rw [hsteady.stored]
      exact fun hstored => hsteady.isActive (h.isActive s hs hstored)
    · exact ht

/-- Whatever the call, it leaves the store in order. -/
theorem Orderly.after (h : st.Orderly) (c : StoreCall) : (st.after c).Orderly := by
  cases c with
  | create seed game => exact h.create seed game
  | close id => exact h.retire _
  | cleanup maxAge => exact h.retire _
  | advance seconds => exact ⟨h.ids, h.isActive⟩
  | call n c =>
    rcases st.after_call n c with hsame | ⟨s, hs, s', hsteady, hupdate⟩
    · rwa [hsame]
    · rw [hupdate]
      exact h.update hs hsteady

/-- Retiring takes out of what is given out just the sessions that are meant. -/
theorem given_retire (st : Store) {p : Session → Bool} {q : Birth → Bool}
    (hpq : ∀ s, p s = q s.birth) : (st.retire p).given = st.given.filter (!q ·) := by
  -- Retiring takes out of the store and does nothing else to a session.
  have hstored : ∀ s : Session, (if s.stored && p s then s.ended else s).stored =
      (!q s.birth && s.stored) := by
    intro s
    rw [← hpq]
    cases hs : s.stored <;> cases p s <;> simp [hs, Session.ended]
  have hbirth : ∀ s : Session, (if s.stored && p s then s.ended else s).birth = s.birth := by
    intro s
    split
    · rfl
    · rfl
  rw [given, sessions_retire, given, List.filter_map, List.map_map, List.filter_map,
    List.filter_filter]
  simp only [Function.comp_def, hstored, hbirth]

/-- A session that stays as the store goes by it is given out as before. -/
theorem given_update (hnodup : (st.sessions.map (·.id)).Nodup) {s s' : Session}
    (hs : s ∈ st.sessions) (hsteady : s.Steady s') : (st.update s').given = st.given := by
  -- By the id no other session is meant.
  have hsame : ∀ t ∈ st.sessions, t.Steady (if t.id = s'.id then s' else t) := by
    intro t ht
    split
    · next hid =>
      obtain rfl := List.inj_on_of_nodup_map hnodup ht hs (hid.trans hsteady.id)
      exact hsteady
    · exact Std.Refl.refl t
  have hstored := List.filter_congr fun t ht => (hsame t ht).stored
  simp only [given, Store.update, List.filter_map, List.map_map, Function.comp_def, hstored]
  exact List.map_congr_left fun t ht => (hsame t (List.mem_of_mem_filter ht)).birth

/-- After a call the store gives out what it did before and the call did not end, and after that
what the call created. -/
theorem given_after (hids : st.newId.Injective) (h : st.Orderly) (c : StoreCall) :
    (st.after c).given = st.given.filter (!·.endedBy st.now c) ++
      match c with
      | .create _ _ => [⟨st.newId (st.sessions.length + 1), st.now⟩]
      | _ => [] := by
  -- A call that ends no session filters none.
  have hnone : st.given.filter (fun _ => !false) = st.given := List.filter_true st.given
  cases c with
  | create seed game =>
    refine Eq.trans ?_ (congrArg (· ++ _) hnone.symm)
    simp only [after, given, Store.create, List.filter_append, List.map_append]
    rfl
  | close id =>
    rw [List.append_nil]
    exact given_retire st fun _ => rfl
  | cleanup maxAge =>
    rw [List.append_nil]
    exact given_retire st fun _ => rfl
  | advance seconds =>
    rw [List.append_nil]
    exact hnone.symm
  | call n c =>
    rw [List.append_nil]
    refine Eq.trans ?_ hnone.symm
    rcases st.after_call n c with hsame | ⟨s, hs, s', hsteady, hupdate⟩
    · rw [hsame]
    · rw [hupdate]
      exact given_update (h.nodup hids) hs hsteady

/-! ## All calls -/

/-- No call changes how ids are made. -/
theorem newId_after (st : Store) (c : StoreCall) : (st.after c).newId = st.newId := by
  cases c with
  | call n c =>
    rcases st.after_call n c with hsame | ⟨s, hs, s', hsteady, hupdate⟩
    · rw [hsame]
    · rw [hupdate]
      rfl
  | _ => rfl

theorem newId_afterAll (st : Store) (calls : List StoreCall) :
    (st.afterAll calls).newId = st.newId := by
  induction calls generalizing st with
  | nil => rfl
  | cons c rest ih => exact (ih _).trans (newId_after st c)

/-- Time passes as it is told to. -/
theorem now_after (st : Store) (c : StoreCall) : (st.after c).now = c.time st.now := by
  cases c with
  | call n c =>
    rcases st.after_call n c with hsame | ⟨s, hs, s', hsteady, hupdate⟩
    · rw [hsame]
      rfl
    · rw [hupdate]
      rfl
  | _ => rfl

/-- Every session is remembered. -/
theorem length_sessions_after (st : Store) (c : StoreCall) : (st.after c).sessions.length =
    match c with
    | .create _ _ => st.sessions.length + 1
    | _ => st.sessions.length := by
  cases c with
  | create seed game => exact List.length_append
  | close id => exact List.length_map ..
  | cleanup maxAge => exact List.length_map ..
  | advance seconds => rfl
  | call n c =>
    rcases st.after_call n c with hsame | ⟨s, hs, s', hsteady, hupdate⟩
    · rw [hsame]
    · rw [hupdate]
      exact List.length_map ..

/-- What lasts of some calls is what the first created, if nothing ends it later, and what lasts of
the others. -/
theorem lasting_cons (newId : Nat → String) (made : Nat) (now : Binary64) (c : StoreCall)
    (rest : List StoreCall) : lasting newId made now (c :: rest) = match c with
      | .create _ _ => [⟨newId (made + 1), now⟩].filter (!·.isEndedBy now rest) ++
        lasting newId (made + 1) now rest
      | c => lasting newId made (c.time now) rest := by
  cases c with
  | create seed game =>
    simp only [lasting, births, List.filter_cons, List.filter_nil]
    cases Birth.isEndedBy ⟨newId (made + 1), now⟩ now rest with
    | true => rfl
    | false => rfl
  | _ => rfl

/-- After any calls a store gives out what it did before and none of them ended, and after that what
lasts of what they created. -/
theorem given_afterAll (hids : st.newId.Injective) (h : st.Orderly) (calls : List StoreCall) :
    (st.afterAll calls).given = st.given.filter (!·.isEndedBy st.now calls) ++
      lasting st.newId st.sessions.length st.now calls := by
  induction calls generalizing st with
  | nil => simp [afterAll, lasting, births, Birth.isEndedBy]
  | cons c rest ih =>
    have hstep := ih (by rwa [newId_after]) (h.after c)
    rw [newId_after, now_after, length_sessions_after, given_after hids h] at hstep
    change ((st.after c).afterAll rest).given = _
    rw [hstep, lasting_cons, List.filter_append, List.filter_filter, List.append_assoc]
    congr 1
    · simp only [Birth.isEndedBy, Bool.not_or, Bool.and_comm]
    · cases c <;> rfl

/-- Whatever the calls, they leave the store in order. -/
theorem Orderly.afterAll (h : st.Orderly) (calls : List StoreCall) :
    (st.afterAll calls).Orderly := by
  induction calls generalizing st with
  | nil => exact h
  | cons c rest ih => exact ih (h.after c)

/-! ## What the store answers -/

/-- The ids of what is given out. -/
theorem Orderly.active_eq (h : st.Orderly) : st.active = st.given.map (·.id) := by
  have hgoing : ∀ s ∈ st.sessions, (s.stored && s.isActive) = s.stored := by
    intro s hs
    cases hstored : s.stored with
    | false => rfl
    | true => exact h.isActive s hs hstored
  rw [active, given, List.filter_congr hgoing, List.map_map]
  rfl

/-- A store has a session for an id if it is the id of one that it gives out. -/
theorem isSome_get?_iff (st : Store) (id : String) :
    (st.get? id).isSome = true ↔ id ∈ st.given.map (·.id) := by
  simp [get?, given, Session.birth, and_assoc]

/-- The ids of what is given out are ids of sessions, in the same order. -/
theorem ids_given_sublist (st : Store) :
    (st.given.map (·.id)).Sublist (st.sessions.map (·.id)) := by
  rw [given, List.map_map]
  exact List.filter_sublist.map _

/-- As many sessions are cleaned up as there are among those that are given out. -/
theorem fst_cleanup (st : Store) (maxAge : Int) : (st.cleanup maxAge).1 =
    st.given.countP fun b => (st.now - b.createdAt).exceeds maxAge := by
  rw [given, List.countP_map, List.countP_filter]
  exact congrArg (List.countP · st.sessions) (funext fun s => Bool.and_comm ..)

/-- The answers of a store that gives out some sessions and no others. -/
structure GivesOut (st : Store) (bs : List Birth) : Prop where
  /-- The sessions are told apart by their ids. -/
  nodup : (bs.map (·.id)).Nodup
  /-- They are listed in order. -/
  active : st.active = bs.map (·.id)
  /-- A session is found for an id that is in the list, and for no other. -/
  isSome_get? : ∀ id, (st.get? id).isSome = true ↔ id ∈ st.active
  /-- What is found is the session of the id, with the time of its creation. -/
  get? : ∀ id s, st.get? id = some s → s ∈ st.sessions ∧ s.id = id ∧ s.birth ∈ bs
  /-- An end is reported for an id that is in the list, and for no other. -/
  close : ∀ id, (st.close id).1 = true ↔ id ∈ st.active
  /-- After that the id, and no other, is missing in the list. -/
  active_close : ∀ id, (st.close id).2.active = st.active.filter (· ≠ id)
  /-- As many sessions are cleaned up as there are too old ones. -/
  cleanup : ∀ maxAge, (st.cleanup maxAge).1 =
    (bs.filter fun b => (st.now - b.createdAt).exceeds maxAge).length
  /-- After that these, and no others, are missing in the list. -/
  active_cleanup : ∀ maxAge, (st.cleanup maxAge).2.active =
    (bs.filter fun b => !(st.now - b.createdAt).exceeds maxAge).map (·.id)

/-- A store that is in order gives out what it says it does. -/
theorem Orderly.givesOut (hids : st.newId.Injective) (h : st.Orderly) : st.GivesOut st.given where
  nodup := (h.nodup hids).sublist st.ids_given_sublist
  active := h.active_eq
  isSome_get? id := by
    rw [isSome_get?_iff, h.active_eq]
  get? id s hs := by
    have hfound := List.find?_some hs
    simp only [Bool.and_eq_true, decide_eq_true_eq] at hfound
    have hmem := List.mem_of_find?_eq_some hs
    exact ⟨hmem, hfound.2, List.mem_map_of_mem (List.mem_filter.mpr ⟨hmem, hfound.1⟩)⟩
  close id := by
    rw [h.active_eq, ← isSome_get?_iff]
    rfl
  active_close id := by
    -- Closing leaves those that do not have the id, in the order that they were.
    have hgiven : (st.close id).2.given = st.given.filter fun b => !decide (b.id = id) :=
      given_retire st fun _ => rfl
    have hactive : (st.close id).2.active = _ := (h.after (.close id)).active_eq
    rw [hactive, h.active_eq, List.filter_map]
    simp only [Function.comp_def, decide_not]
    exact congrArg (List.map (·.id)) hgiven
  cleanup maxAge := by
    rw [fst_cleanup, List.countP_eq_length_filter]
  active_cleanup maxAge := by
    have hgiven : (st.cleanup maxAge).2.given =
        st.given.filter fun b => !(st.now - b.createdAt).exceeds maxAge :=
      given_retire st fun _ => rfl
    rw [← hgiven]
    exact (h.after (.cleanup maxAge)).active_eq

/-- Whatever was done with a store and with the sessions that it created, it gives out just those
of them that were not ended since, if no two sessions get the same id. -/
theorem givesOut_afterAll (rules : Rules) (now : Binary64) (entropy : Int) (newId : Nat → String)
    (hids : newId.Injective) (calls : List StoreCall) :
    let st : Store := { rules, now, entropy, newId }
    (st.afterAll calls).GivesOut (lasting newId 0 now calls) := by
  intro st
  have hnew : st.Orderly := .of_sessions_eq_nil rfl
  have hgiven : (st.afterAll calls).given = lasting newId 0 now calls := by
    have hnone : st.given = [] := rfl
    rw [given_afterAll hids hnew, hnone]
    exact List.nil_append _
  have hsame : (st.afterAll calls).newId = newId := newId_afterAll st calls
  rw [← hgiven]
  exact (hnew.afterAll calls).givesOut (by rwa [hsame])

/-- A session that is ended while its player has to pick targets, and taken up again by picking
them, is not listed again. -/
theorem active_after_ending :
    let newId := fun n : Nat => s!"session-{n}"
    let alchemy : Card := { serial := 1, instanceId := "alchemy#1", cardId := "alchemy" }
    let copper : Card := { serial := 2, instanceId := "copper#2", cardId := "copper" }
    let game : GameState :=
      { zones := { hand := [alchemy, copper] }, instancesMade := 2, copiesMade := 2 }
    let opening : List StoreCall :=
      [.create none (some game), .call 0 (.play "alchemy#1"), .create none none]
    let rest : List StoreCall :=
      [.close "session-1", .call 0 (.select ["copper#2"]), .advance (.ofRatio false 10 1),
        .create none none, .cleanup 5]
    let st : Store := {}
    newId.Injective ∧
      (st.afterAll opening).sessions.map (·.status) = [.awaitingTarget, .active] ∧
      (st.afterAll (opening ++ rest)).sessions.map (·.status) = [.active, .ended, .active] ∧
      (st.afterAll (opening ++ rest)).active = ["session-3"] := by
  intro newId alchemy copper game opening rest st
  have hids : newId.Injective := fun m n h => number_inj "session-" h
  have hactive := (givesOut_afterAll { catalog := Starter.catalog } (.zero false) 0 newId hids
    (opening ++ rest)).active
  exact ⟨hids, by decide +kernel, by decide +kernel, hactive.trans (by decide +kernel)⟩

end Store

end Treasury
