import Treasury.Proofs.Activation.Rest
import Treasury.Session.Store

/-!
# Refused calls of a session

Playing a card spends an action and moves the card before the engine is asked, and the engine may
refuse. That it never does so then is a matter of all calls before: while the player may play, no
activation is in flight.

* `Session.Sound` is that invariant, and `Session.Clean` says how a call keeps it: an answer leaves
  the session sound, and a refusal leaves it as it was.
* `Session.clean_call` is the step: every call of a sound session is clean.
* `Session.Comes` are the sessions that calls of a player lead to, and
  `Session.call_eq_self_of_refused` is the statement for those that come of a new one.
-/

namespace Treasury

/-- A call that a player makes of a session. -/
inductive PlayerCall where
  /-- Plays a card. -/
  | play (instanceId : String)
  /-- Triggers an event. -/
  | trigger (eventId : String) (choiceId : Option String)
  /-- Picks targets. -/
  | select (ids : List String)
  /-- Passes the effect that waits over. -/
  | cancel
  deriving Inhabited

namespace Session

/-- Makes a call of the session. -/
def perform (r : Rules) : PlayerCall → Call Outcome
  | .play instanceId => play r instanceId
  | .trigger eventId choiceId => trigger r eventId choiceId
  | .select ids => select r ids
  | .cancel => cancel r

/-- A call of the session, with what it comes to and the session that it leaves. -/
def call (r : Rules) (s : Session) (c : PlayerCall) : Except SessionError Outcome × Session :=
  exec (perform r c) s

/-- The machine is ready, and while the player may play nothing is in flight. -/
structure Sound (r : Rules) (s : Session) : Prop where
  /-- The machine waits, or nothing is in flight. -/
  ready : s.machine.Ready r
  /-- Where the player may play, nothing is in flight. -/
  isBusy_eq : s.status = .active → s.machine.isBusy = false

/-- A call that is refused leaves the session as it was, and one with an outcome leaves it sound. -/
structure Clean (r : Rules) (s : Session) (done : Except SessionError Outcome × Session) :
    Prop where
  /-- A refusal changes nothing. -/
  eq_of_refused : ∀ e, done.1 = .error e → e.isRefusal = true → done.2 = s
  /-- An answer leaves the session sound. -/
  sound_of_ok : ∀ o, done.1 = .ok o → done.2.Sound r

variable {r : Rules} {s : Session}

/-- A call that fails at once is clean. -/
theorem clean_error (e : SessionError) : Clean r s (.error e, s) where
  eq_of_refused _ _ _ := rfl
  sound_of_ok _ ho := by cases ho

/-- A call that ends in a fault is clean, whatever it did before. -/
theorem clean_fault (f : Fault) (s' : Session) : Clean r s (.error (.engine (.fault f)), s') where
  eq_of_refused e he hrefusal := by
    cases he
    cases hrefusal
  sound_of_ok _ ho := by cases ho

/-- What comes after the player was found free to play has to be clean only where he is. -/
theorem clean_ready_bind {f : Unit → Call Outcome}
    (hf : s.status = .active → Clean r s (exec (f ()) s)) : Clean r s (exec (ready >>= f) s) := by
  unfold ready
  rw [bind_assoc, exec_get_bind]
  rcases hstatus : s.status with _ | _ | _
  · exact hf hstatus
  · exact clean_error .selectionPending
  · exact clean_error .ended

/-- The session with another table. -/
def withTable (s : Session) (t : Table) : Session :=
  { s with machine := { s.machine with table := t } }

/-- What comes after an action on the table goes on with the table that it leaves. -/
theorem exec_act_bind {α : Type} (x : Play α) (f : α → Call Outcome) :
    exec (act x >>= f) s = match exec x s.machine.table with
      | (.error fault, t) => (.error (.engine (.fault fault)), s.withTable t)
      | (.ok a, t) => exec (f a) (s.withTable t) := by
  unfold act
  rw [bind_assoc, exec_get_bind]
  dsimp only
  rw [bind_assoc, exec_set_bind]
  rw [← exec]
  rcases exec x s.machine.table with ⟨fault | a, t⟩
  · rfl
  · rfl

/-- A call of the machine, and what the session takes down of it. -/
theorem exec_engine (call : Engine.Tell → Run Outcome) :
    exec (engine r call) s = match s.machine.run r call with
      | (.error e, m) => (.error (.engine e), { s with machine := m })
      | (.ok o, m) =>
        (.ok o, { s with machine := m, last := some o, status := statusAfter o }) := by
  unfold engine
  rw [exec_get_bind]
  dsimp only
  rw [exec_set_bind]
  rcases s.machine.run r call with ⟨e | o, m⟩
  · rfl
  · rfl

/-- What is playable is in hand, and it has a definition. -/
theorem named?_of_playable {instanceId : String} {c : Card} {d : CardDefinition}
    (h : s.playable r instanceId = .ok (c, d)) :
    s.game.zones.hand.named? instanceId = some c ∧ r.catalog.card? c.cardId = some d := by
  unfold playable at h
  split at h
  · cases h
  · next hc =>
    split at h
    · cases h
    · next hd =>
      split at h
      · cases h
        exact ⟨hc, hd⟩
      · cases h

/-- Looking whether the player may play changes nothing. -/
theorem keeps_ready {R : Session → Session → Prop} [IsPreorder Session R] : Keeps R ready := by
  refine Keeps.bind .get fun s => ?_
  split
  · exact .pure _
  · exact .throw _
  · exact .throw _

/-- Triggering an event keeps what starting an activation without a source keeps. -/
theorem keeps_trigger {R : Session → Session → Prop} [IsPreorder Session R]
    (hstart : ∀ groups, Keeps R (engine r fun tell => Engine.start tell r groups none))
    (eventId : String) (choiceId : Option String) : Keeps R (trigger r eventId choiceId) := by
  refine Keeps.bind keeps_ready fun _ => .bind .get fun s => ?_
  split
  · exact .throw _
  · exact hstart _

/-- A call of the machine is clean. -/
theorem clean_engine (h : s.Sound r) (c : HostCall) {call : Engine.Tell → Run Outcome}
    (hcall : s.machine.run r call = s.machine.call r c) : Clean r s (exec (engine r call) s) := by
  rw [exec_engine, hcall]
  rcases hdone : s.machine.call r c with ⟨e | o, m⟩
  · refine ⟨fun e' he hrefusal => ?_, fun _ ho => nomatch ho⟩
    cases he
    have hsame := Machine.eq_of_call_refused (congrArg Prod.fst hdone) hrefusal
    rw [hdone] at hsame
    obtain rfl : m = s.machine := hsame
    rfl
  · refine ⟨fun _ he => (nomatch he), fun o' ho => ?_⟩
    cases ho
    obtain ⟨hready, hphase⟩ := Machine.ready_of_call h.ready (congrArg Prod.fst hdone)
    rw [hdone] at hready hphase
    refine ⟨hready, fun hactive => ?_⟩
    -- The status is taken from the outcome, and a machine that does not wait is free.
    rcases hready.settled with hfree | ⟨p, hw⟩
    · exact hfree
    · have hwaits : statusAfter o = .awaitingTarget :=
        if_pos (hphase.symm.trans hw.phase_eq)
      exact absurd (hwaits.symm.trans hactive) (fun h => nomatch h)

/-- While nothing is in flight, no activation is refused. -/
theorem not_refused_start (hfree : s.machine.isBusy = false) (groups : List Group)
    (source : Option Card) {e : SessionError}
    (he : (exec (engine r fun tell => Engine.start tell r groups source) s).1 = .error e) :
    ¬ e.isRefusal = true := by
  rw [exec_engine] at he
  have ht := Engine.notify_tells (r := r) s.machine.depth
  have hstart := Engine.start_isRefused_iff (r := r) ht groups source s.machine
  rcases hdone : s.machine.run r fun tell => Engine.start tell r groups source with ⟨e' | o, m⟩ <;>
    rw [hdone] at he
  · cases he
    intro hrefusal
    have hbusy := hstart.mp ⟨e', congrArg Prod.fst hdone, hrefusal⟩
    exact Bool.false_ne_true (hfree.symm.trans hbusy.1)
  · cases he

/-- If there is no action to spend, nothing is spent. -/
theorem eq_of_consumeAction {t u : Table} (h : exec (Economy.consumeAction r) t = (.ok false, u)) :
    u = t := by
  obtain ⟨f, hdone⟩ | ⟨-, hdone⟩ | ⟨-, hdone⟩ := Economy.exec_consumeAction_cases r t <;>
    cases hdone.symm.trans h
  rfl

/-- Playing a card is clean, though much is done before the engine is asked. -/
theorem clean_play (h : s.Sound r) (instanceId : String) :
    Clean r s (exec (play r instanceId) s) := by
  refine clean_ready_bind fun hactive => ?_
  have hfree := h.isBusy_eq hactive
  rw [exec_get_bind]
  rcases s.playable r instanceId with e | ⟨c, d⟩
  · exact clean_error e
  · dsimp only
    rw [exec_act_bind]
    rcases hspent : exec (Economy.consumeAction r) s.machine.table with ⟨f | spent, t⟩
    · exact clean_fault f _
    · cases spent with
      | false =>
        obtain rfl := eq_of_consumeAction hspent
        exact clean_error .noActions
      | true =>
        -- From here on the session is another one, but nothing that can fail is a refusal.
        change Clean r s (exec (act (Deck.play r c) >>= fun _ => engine r fun tell =>
          Engine.start tell r d.effects (some c)) (s.withTable t))
        rw [exec_act_bind]
        rcases exec (Deck.play r c) (s.withTable t).machine.table with ⟨f | moved, u⟩
        · exact clean_fault f _
        · have hsound : Sound r ((s.withTable t).withTable u) :=
            ⟨⟨h.ready.quiet, .inl hfree⟩, fun _ => hfree⟩
          refine ⟨fun e he hrefusal => ?_, (clean_engine hsound (.start _ _) rfl).sound_of_ok⟩
          exact absurd hrefusal (not_refused_start (by exact hfree) d.effects (some c) he)

/-- Triggering an event is clean. -/
theorem clean_trigger (h : s.Sound r) (eventId : String) (choiceId : Option String) :
    Clean r s (exec (trigger r eventId choiceId) s) := by
  refine clean_ready_bind fun _ => ?_
  rw [exec_get_bind]
  rcases s.groupsOf r eventId choiceId with e | groups
  · exact clean_error e
  · exact clean_engine h (.start groups none) rfl

/-- Every call of a sound session is clean. -/
theorem clean_call (h : s.Sound r) (c : PlayerCall) : Clean r s (s.call r c) := by
  cases c with
  | play instanceId => exact clean_play h instanceId
  | trigger eventId choiceId => exact clean_trigger h eventId choiceId
  | select ids => exact clean_engine h (.answer (.pick ids)) rfl
  | cancel => exact clean_engine h (.answer .pass) rfl

/-- The session after it was ended. -/
def ended (s : Session) : Session := { s with status := .ended, stored := false }

/-- The sessions that come of a given one by calls that end with an outcome or are refused, whether
or not the session is ended in between. -/
inductive Comes (r : Rules) (s : Session) : Session → Prop
  /-- Nothing is done. -/
  | start : Comes r s s
  /-- A call is answered or refused. -/
  | called {s' : Session} (h : Comes r s s') (c : PlayerCall)
    (hend : ∀ e, (s'.call r c).1 = .error e → e.isRefusal = true) : Comes r s (s'.call r c).2
  /-- The session is ended. -/
  | ended {s' : Session} (h : Comes r s s') : Comes r s s'.ended

/-- A call that is answered is one of those. -/
theorem Comes.answered {s' : Session} (h : Comes r s s') {c : PlayerCall}
    (hok : (s'.call r c).1.isOk = true) : Comes r s (s'.call r c).2 := by
  refine h.called c fun e he => ?_
  rw [he] at hok
  exact absurd hok Bool.false_ne_true

/-- A new session is sound. -/
theorem sound_create (st : Store) (seed : Option Int) (game : Option GameState) :
    (st.create seed game).1.Sound r where
  ready := ⟨fun _ ho => List.mem_singleton.mp ho, .inl rfl⟩
  isBusy_eq _ := rfl

/-- A call that is answered or refused keeps a session sound. -/
theorem Sound.call (h : s.Sound r) (c : PlayerCall)
    (hend : ∀ e, (s.call r c).1 = .error e → e.isRefusal = true) : (s.call r c).2.Sound r := by
  have hclean := clean_call h c
  rcases hdone : (s.call r c).1 with e | o
  · rwa [hclean.eq_of_refused e hdone (hend e hdone)]
  · exact hclean.sound_of_ok o hdone

/-- So do the calls that lead from one session to another. -/
theorem Comes.sound {s' : Session} (h : Comes r s s') (hs : s.Sound r) : s'.Sound r := by
  induction h with
  | start => exact hs
  | called _ c hend ih => exact ih.call c hend
  | ended _ ih => exact ⟨ih.ready, fun h => nomatch h⟩

/-- Whatever calls were made of a new session before, all of them answered or refused, a call that
is refused leaves the game, the machine with its dice and its record, the latest outcome and the
status as they were. -/
theorem call_eq_self_of_refused {st : Store} {seed : Option Int} {game : Option GameState}
    (h : Comes r (st.create seed game).1 s) (c : PlayerCall) {e : SessionError}
    (he : (s.call r c).1 = .error e) (hrefusal : e.isRefusal = true) : (s.call r c).2 = s :=
  (clean_call (h.sound (sound_create st seed game)) c).eq_of_refused e he hrefusal

/-- A card that is played without an action left stays in hand. -/
theorem call_eq_self_of_no_actions :
    let r : Rules := { catalog := Starter.catalog }
    let smelting : Card := { serial := 1, instanceId := "smelting#1", cardId := "smelting" }
    let s := (({} : Store).create none (some
      { actions := 0, zones := { hand := [smelting] }, instancesMade := 1, copiesMade := 1 })).1
    (s.call r (.play "smelting#1")).1 = .error .noActions ∧
      (s.call r (.play "smelting#1")).2 = s := by
  intro r smelting s
  have hrefused : (s.call r (.play "smelting#1")).1 = .error .noActions := rfl
  have hcomes : Comes r s s := .start
  exact ⟨hrefused, call_eq_self_of_refused hcomes _ hrefused rfl⟩

end Session

end Treasury
