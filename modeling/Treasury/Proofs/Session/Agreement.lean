import Treasury.Proofs.Activation.Chronicle
import Treasury.Proofs.Activation.Taking
import Treasury.Proofs.Session.Identity

/-!
# Sessions and their machines

A session has a status, its machine a phase, and the machine may have a request. All three say
whether the player has to pick targets, and they are written at different moments of a call. After a
call that is answered or refused they agree, and a request that waits is then as good as new: calls
that could change the hand in the meantime are refused.

* `Session.Relays`: an answered call comes to what one call of the machine comes to.
  `Session.relays_call` says so of every call.
* `Session.InStep` is the invariant, and `Session.Comes.inStep` says that it holds of all sessions
  that come of a new one.
* `Session.waits_iff_of_comes` is the statement for them. `Session.not_nodup_of_id_still_to_be_made`
  shows what it takes that the candidates of a request differ.
-/

namespace Treasury.Session

variable {r : Rules} {s : Session}

/-! ## Calls of the machine -/

/-- If a call of the session is answered, that is the answer to a call of its machine, made while
the machine was ready and maybe after a change to the table. The session takes down where the
machine stands. -/
def Relays (r : Rules) (s : Session) (done : Except SessionError Outcome × Session) : Prop :=
  ∀ o, done.1 = .ok o → ∃ t c, (s.withTable t).machine.Ready r ∧
    (s.withTable t).machine.call r c = (.ok o, done.2.machine) ∧ done.2.status = statusAfter o

theorem relays_error (e : SessionError) (s' : Session) : Relays r s (.error e, s') :=
  fun _ ho => nomatch ho

/-- What comes after the player was found free to play matters only where he is. -/
theorem relays_ready_bind {f : Unit → Call Outcome}
    (hf : s.status = .active → Relays r s (exec (f ()) s)) :
    Relays r s (exec (ready >>= f) s) := by
  unfold ready
  rw [bind_assoc, exec_get_bind]
  rcases hstatus : s.status with _ | _ | _
  · exact hf hstatus
  · exact relays_error .selectionPending s
  · exact relays_error .ended s

/-- A call of the machine on some table. -/
theorem relays_engine {t : Table} (hready : (s.withTable t).machine.Ready r) (c : HostCall)
    {call : Engine.Tell → Run Outcome}
    (hcall : (s.withTable t).machine.run r call = (s.withTable t).machine.call r c) :
    Relays r s (exec (engine r call) (s.withTable t)) := by
  rw [exec_engine, hcall]
  rcases hdone : (s.withTable t).machine.call r c with ⟨e | o, m⟩
  · exact relays_error _ _
  · rintro o' ho
    cases ho
    exact ⟨t, c, hready, hdone, rfl⟩

/-- Playing a card changes the table before the machine is asked. -/
theorem relays_play (h : s.Sound r) (instanceId : String) :
    Relays r s (exec (play r instanceId) s) := by
  refine relays_ready_bind fun hactive => ?_
  rw [exec_get_bind]
  rcases s.playable r instanceId with e | ⟨card, d⟩
  · exact relays_error e s
  · dsimp only
    rw [exec_act_bind]
    rcases exec (Economy.consumeAction r) s.machine.table with ⟨f | spent, t⟩
    · exact relays_error _ _
    · cases spent with
      | false => exact relays_error .noActions _
      | true =>
        change Relays r s (exec (act (Deck.play r card) >>= fun _ => engine r fun tell =>
          Engine.start tell r d.effects (some card)) (s.withTable t))
        rw [exec_act_bind]
        rcases exec (Deck.play r card) (s.withTable t).machine.table with ⟨f | moved, u⟩
        · exact relays_error _ _
        · -- While the player may play nothing is in flight, whatever the table.
          have hready : (s.withTable u).machine.Ready r :=
            ⟨h.ready.quiet, .inl (h.isBusy_eq hactive)⟩
          exact relays_engine hready (.start d.effects (some card)) rfl

theorem relays_trigger (h : s.Sound r) (eventId : String) (choiceId : Option String) :
    Relays r s (exec (trigger r eventId choiceId) s) := by
  refine relays_ready_bind fun _ => ?_
  rw [exec_get_bind]
  rcases s.groupsOf r eventId choiceId with e | groups
  · exact relays_error e s
  · exact relays_engine (t := s.machine.table) h.ready (.start groups none) rfl

/-- Whatever the call of a sound session, it relays what a call of the machine comes to. -/
theorem relays_call (h : s.Sound r) (c : PlayerCall) : Relays r s (s.call r c) := by
  cases c with
  | play instanceId => exact relays_play h instanceId
  | trigger eventId choiceId => exact relays_trigger h eventId choiceId
  | select ids => exact relays_engine (t := s.machine.table) h.ready (.answer (.pick ids)) rfl
  | cancel => exact relays_engine (t := s.machine.table) h.ready (.answer .pass) rfl

/-! ## The invariant -/

/-- The session is sound, its machine keeps a record by which a request tells whether it waits, it
waits where the session says so, and the ids on the table tell cards apart. -/
structure InStep (r : Rules) (s : Session) : Prop where
  /-- The session is sound. -/
  sound : s.Sound r
  /-- The record of the machine consists of blocks. -/
  records : ∃ bs, s.machine.Records bs
  /-- Where the session says that the player has to pick targets, the machine waits. -/
  waits : s.status = .awaitingTarget → s.machine.phase = .awaitingTarget
  /-- The ids on the table differ, and none of them is one that is still to be made. -/
  distinct : s.game.Distinct

/-- Whatever the call, ids that differ stay so. -/
theorem distinct_call (hdistinct : s.game.Distinct) (c : PlayerCall) :
    (s.call r c).2.game.Distinct := by
  have hgo : ∀ call : SessionCall, (s.after r call).game.Distinct := fun call => by
    obtain ⟨outside, hevolves⟩ := s.continues_afterAll (r := r) [call]
    exact hevolves.distinct hdistinct
  cases c with
  | play instanceId => exact hgo (.play instanceId)
  | trigger eventId choiceId => exact hgo (.trigger eventId choiceId)
  | select ids => exact hgo (.select ids)
  | cancel => exact hgo .cancel

/-- A call that is answered or refused keeps the session in step with its machine. -/
theorem InStep.call (h : s.InStep r) (c : PlayerCall)
    (hend : ∀ e, (s.call r c).1 = .error e → e.isRefusal = true) : (s.call r c).2.InStep r := by
  have hclean := clean_call h.sound c
  rcases hdone : (s.call r c).1 with e | o
  · rw [hclean.eq_of_refused e hdone (hend e hdone)]
    exact h
  · obtain ⟨t, host, hready, hcall, hstatus⟩ := relays_call h.sound c o hdone
    have hanswered : ((s.withTable t).machine.call r host).1 = .ok o := by rw [hcall]
    obtain ⟨bs, hbs⟩ := h.records
    have hrecords : (s.withTable t).machine.Records bs := hbs.of_table t
    obtain ⟨bs', hbs', -⟩ := hrecords.call hready host fun e he => by
      rw [hanswered] at he
      cases he
    have hphase := (Machine.ready_of_call hready hanswered).2
    rw [hcall] at hbs' hphase
    refine ⟨hclean.sound_of_ok o hdone, ⟨bs', hbs'⟩, fun hwaits => ?_, distinct_call h.distinct c⟩
    -- The status is taken from the outcome, which says where the machine stands.
    rw [hstatus, statusAfter] at hwaits
    split at hwaits
    · next hawaiting => exact hphase.trans hawaiting
    · cases hwaits

/-- Sessions that come of one in step with its machine are in step with theirs. -/
theorem Comes.inStep {s' : Session} (h : Comes r s s') (hs : s.InStep r) : s'.InStep r := by
  induction h with
  | start => exact hs
  | called _ c hend ih => exact ih.call c hend
  | ended _ ih =>
    exact ⟨⟨ih.sound.ready, fun h => nomatch h⟩, ih.records, fun h => (nomatch h), ih.distinct⟩

/-- A new session is in step with its machine. -/
theorem inStep_create (st : Store) (seed : Option Int) (game : Option GameState)
    (hgame : ∀ g, game = some g → g.Distinct) : (st.create seed game).1.InStep r where
  sound := sound_create st seed game
  records := ⟨[], rfl, rfl, fun _ hb => (nomatch hb), rfl, by simp [Store.create],
    fun _ hb => (nomatch hb), fun _ hb => (nomatch hb)⟩
  waits h := nomatch h
  distinct := by
    cases game with
    | none => exact (Starter.setup_wellmade _ _ _).distinct
    | some g => exact hgame g rfl

/-- A request of a session in step with its machine is up to date: it is the one that the effect
which waits makes of the hand as it is. -/
theorem InStep.exists_waiting (h : s.InStep r) (hphase : s.machine.phase = .awaitingTarget) :
    ∃ p, s.machine.Waiting r p :=
  h.sound.ready.exists_waiting hphase

/-- Whatever calls were made of a new session, all of them answered or refused: unless it has ended,
its status says that the player has to pick targets if the machine waits for them, and the machine
waits if it has a request. Then the candidates are some cards, no two of one id, all in hand and of
the kind that is asked for, and the first effect shown is the one that the request is for. The ids
have to differ at the start, and none may be one that is still to be made. -/
theorem waits_iff_of_comes {st : Store} {seed : Option Int} {game : Option GameState}
    (hgame : ∀ g, game = some g → g.Distinct) (h : Comes r (st.create seed game).1 s)
    (hopen : s.status ≠ .ended) :
    (s.status = .awaitingTarget ↔ s.machine.phase = .awaitingTarget) ∧
      (s.machine.phase = .awaitingTarget ↔ s.machine.request.isSome = true) ∧
      ∀ q, s.machine.request = some q →
        q.candidates ≠ [] ∧ q.candidateIds.Nodup ∧
          (∀ c ∈ q.candidates, c ∈ s.game.zones.hand ∧
            ∀ kind, q.targetKind.wanted? = some kind → r.kindOf c = some kind) ∧
          ∃ p rest, s.machine.preview = p :: rest ∧ q.effectKind = p.effect.kind ∧
            q = p.effect.request (p.effect.selectable r s.game) := by
  have hstep := h.inStep (inStep_create st seed game hgame)
  obtain ⟨bs, hrecords⟩ := hstep.records
  refine ⟨⟨hstep.waits, fun hphase => ?_⟩, hrecords.waits_iff, fun q hq => ?_⟩
  · -- Where the player may play nothing is in flight.
    cases hstatus : s.status with
    | active =>
      exact absurd hphase (Machine.not_awaiting_of_free (hstep.sound.isBusy_eq hstatus))
    | awaitingTarget => rfl
    | ended => exact absurd hstatus hopen
  · -- What waits is the request that the effect would make now.
    have hphase : s.machine.phase = .awaitingTarget := by
      rw [hrecords.waits_iff, hq]
      rfl
    obtain ⟨p, hw⟩ := hstep.exists_waiting hphase
    obtain rfl : q = p.effect.request (p.effect.selectable r s.game) :=
      Option.some.inj (hq.symm.trans hw.request_eq)
    refine ⟨?_, Effect.nodup_candidateIds hstep.distinct.nodup, fun c hc => ⟨?_, ?_⟩,
      p, s.machine.queue, hw.preview_eq, rfl, rfl⟩
    · exact fun hnil => Bool.false_ne_true (hw.selectable_ne.symm.trans (List.isEmpty_iff.mpr hnil))
    · exact Effect.mem_hand_of_mem_selectable hc
    · exact fun kind hkind => Effect.kindOf_of_mem_selectable hkind hc

/-- Alchemy is played in a new session, and a treasure has to be picked. -/
theorem waits_iff_of_alchemy :
    let r : Rules := { catalog := Starter.catalog }
    let alchemy : Card := { serial := 1, instanceId := "alchemy#1", cardId := "alchemy" }
    let copper : Card := { serial := 2, instanceId := "copper#2", cardId := "copper" }
    let g : GameState :=
      { zones := { hand := [alchemy, copper] }, instancesMade := 2, copiesMade := 2 }
    let s := ((({} : Store).create none (some g)).1.call r (.play "alchemy#1")).2
    g.Distinct ∧ s.status = .awaitingTarget ∧ s.machine.phase = .awaitingTarget ∧
      ∃ q, s.machine.request = some q ∧ q.candidateIds.Nodup := by
  intro r alchemy copper g s
  have hdistinct : g.Distinct := by
    refine ⟨by decide +kernel, fun cardId n hn hid => ?_⟩
    have hid : numbered cardId n = "alchemy#1" ∨ numbered cardId n = "copper#2" := by
      simpa [Zones.ids, Zones.cards, g, alchemy, copper] using hid
    rcases hid with hid | hid
    · exact absurd (numbered_inj (d := "alchemy") (n := 1) hid ▸ hn) (by decide)
    · exact absurd (numbered_inj (d := "copper") (n := 2) hid ▸ hn) (by decide)
  have hstatus : s.status = .awaitingTarget := by decide +kernel
  have hcomes : Comes r (({} : Store).create none (some g)).1 s :=
    Comes.start.answered (c := .play "alchemy#1") (by decide +kernel)
  have hopening : ∀ g', some g = some g' → g'.Distinct := fun g' hg' =>
    Option.some.inj hg' ▸ hdistinct
  have hopen : s.status ≠ .ended := by rw [hstatus]; decide
  obtain ⟨hphase, hrequest, hvalid⟩ := waits_iff_of_comes hopening hcomes hopen
  obtain ⟨q, hq⟩ := Option.isSome_iff_exists.mp (hrequest.mp (hphase.mp hstatus))
  exact ⟨hdistinct, hstatus, hphase.mp hstatus, q, hq, (hvalid q hq).2.1⟩

/-- That the ids on the table differ is not enough: here the game has not reached the number of a
silver in hand, and gives its id to a new one. Both are then candidates when a treasure has to be
picked. -/
theorem not_nodup_of_id_still_to_be_made :
    let r : Rules := { catalog := Starter.catalog }
    let silver : Card := { serial := 1, instanceId := "silver#1", cardId := "silver" }
    let mint : Card := { serial := 2, instanceId := "mint#8", cardId := "mint" }
    let alchemy : Card := { serial := 3, instanceId := "alchemy#9", cardId := "alchemy" }
    let g : GameState :=
      { actions := 2, zones := { hand := [silver, mint, alchemy] }, copiesMade := 3 }
    let s := ((({} : Store).create none (some g)).1.call r (.play "mint#8")).2
    let done := s.call r (.play "alchemy#9")
    g.zones.ids.Nodup ∧ Comes r (({} : Store).create none (some g)).1 done.2 ∧
      done.2.status = .awaitingTarget ∧
      ∃ q, done.2.machine.request = some q ∧ ¬ q.candidateIds.Nodup := by
  intro r silver mint alchemy g s done
  have hmint : Comes r (({} : Store).create none (some g)).1 s :=
    Comes.start.answered (c := .play "mint#8") (by decide +kernel)
  have halchemy : Comes r (({} : Store).create none (some g)).1 done.2 :=
    hmint.answered (c := .play "alchemy#9") (by decide +kernel)
  refine ⟨by decide +kernel, halchemy, by decide +kernel, ?_⟩
  -- The silver that the mint makes gets the id of the one in hand.
  have hids : done.2.machine.request.map (·.candidateIds) = some ["silver#1", "silver#1"] := by
    decide +kernel
  obtain ⟨q, hq, hids⟩ := Option.map_eq_some_iff.mp hids
  refine ⟨q, hq, ?_⟩
  rw [hids]
  decide

end Treasury.Session
