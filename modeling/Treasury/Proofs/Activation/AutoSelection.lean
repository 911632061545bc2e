import Treasury.Proofs.Activation.Dialogue
import Treasury.Proofs.Activation.Rest
import Treasury.Proofs.Activation.Targets
import Treasury.Proofs.Execution.Evolution
import Treasury.Proofs.Execution.Selecting

/-!
# Picking targets for the player

Where targets are picked for the player, the machine takes the first candidates, as many as may be
picked, and goes on. A player who answers every request with just these cards gets the same game,
the same outcome and, but for the requests, the same events.

* `drain_completesAs` is the induction over the queue. A request stops the run that asks, so one
  step of the run that does not ask is a step up to the request, an answer and the rest of the
  queue.
* `dialogue_of_autoSelect` is the statement for a call that starts an activation.

The ids of the candidates have to tell them apart. They do if the ids on the table differ and none
of them is one that the game is still to make, and this is kept by everything an effect does.
-/

namespace Treasury

/-- Events without the requests. -/
def Event.unasked (es : List Event) : List Event :=
  es.filter fun e => e.moment ≠ .targetRequired

/-- What a machine's observers took down, without the requests. -/
def Machine.heard (m : Machine) : List Event := Event.unasked m.record

open Event (unasked)

theorem Event.unasked_append (es fs : List Event) : unasked (es ++ fs) = unasked es ++ unasked fs :=
  List.filter_append _ _

theorem Event.unasked_append_congr {es fs : List Event} (h : unasked es = unasked fs)
    (gs : List Event) : unasked (es ++ gs) = unasked (fs ++ gs) := by
  rw [unasked_append, unasked_append, h]

/-- Requests are not among the events without them. -/
theorem Event.unasked_replicate_targetRequired (n : Nat) (q : TargetRequest) :
    unasked (List.replicate n (.targetRequired q)) = [] := by
  refine List.filter_eq_nil_iff.mpr fun e he => ?_
  rw [List.eq_of_mem_replicate he]
  simp [moment]

/-- If a host that picks the first candidates, as many as may be picked, answers the requests that
come up, the machine completes with the outcome and leaves the same table and the same events as the
other machine. -/
def Machine.CompletesAs (r : Rules) (done : Except EngineError Outcome × Machine) (o : Outcome)
    (m : Machine) : Prop :=
  ∃ d last, Dialogue r d done o last ∧ (∀ x ∈ d, x.2 = .pick x.1.firstIds) ∧
    o.phase = .completed ∧ last.phase = .completed ∧ last.table = m.table ∧ last.heard = m.heard

theorem Machine.CompletesAs.asked {r : Rules} {o last : Outcome} {m m' : Machine}
    {q : TargetRequest} (hphase : o.phase = .awaitingTarget) (hrequest : o.request = some q)
    (h : CompletesAs r (m.answer r (.pick q.firstIds)) last m') :
    CompletesAs r (.ok o, m) last m' := by
  obtain ⟨d, end', hdialogue, hanswers, hend⟩ := h
  refine ⟨(q, .pick q.firstIds) :: d, end', .asked hphase hrequest hdialogue, ?_, hend⟩
  exact List.forall_mem_cons.mpr ⟨rfl, hanswers⟩

namespace Pending

variable (r : Rules) (p : Pending) (targets : List Card) (results : ResultStack)

/-- Who picks the targets does not matter to an effect that is carried out. -/
theorem carriedOut_selecting (auto : Bool) :
    p.carriedOut (r.selecting auto) targets results = p.carriedOut r targets results := by
  unfold carriedOut
  simp only [Assignment.execute_selecting]
  rfl

/-- Beside the cards on the table, an effect that is carried out moves its targets at most. -/
theorem keeps_carriedOut : Keeps (Table.Evolves targets) (p.carriedOut r targets results) := by
  have hrolled : ∀ t u : Table, t.Rolled u → t.Evolves targets u := by
    rintro t _ ⟨dice, rfl⟩
    exact Std.Refl.refl (r := GameState.Evolves targets) t.game
  refine .bind ((p.keeps_magnitude r targets results).mono hrolled) fun magnitude =>
    .bind (fun t => ?_) fun _ => .pure _
  have hexecute := Table.Evolves.execute (r := r)
    { effect := p.effect, magnitude, results, targets }
    (fun _ hc => hc : ∀ c ∈ targets, c ∈ targets) t
  -- A failure is caught, and leaves the table as it was then.
  rw [exec_tryCatch]
  rcases hdone : exec (Assignment.execute _ r) t with ⟨f | result, u⟩ <;> rw [hdone] at hexecute
  · exact hexecute
  · exact hexecute

end Pending

namespace Engine

open Event (unasked_append_congr)

variable {r : Rules}

/-- An effect that is carried out by both of two machines does the same to both. So if what comes
after it comes to an end, the ids on the table still being apart, so does the effect with it. -/
theorem dispatch_completesAs {auto auto' : Bool} {tell tell' : Tell} (ht : Discreet tell)
    (ht' : Discreet tell') {m m' : Machine} {phase : Phase} {request : Option TargetRequest}
    {record : List Event} (hq : m.Quiet) (hd : m.table.game.Distinct) (p : Pending)
    (targets : List Card) {next next' : Run Outcome} {o : Outcome}
    (h : exec (dispatch tell (r.selecting auto) p targets >>= fun _ => next) m = (.ok o, m'))
    (hnext : ∀ t results e, t.game.Distinct →
      exec next ({ m with phase := .dispatching, table := t, results, current := none }.noted e) =
        (.ok o, m') →
      Machine.CompletesAs (r.selecting auto') (exec next'
        ({ m with phase := .dispatching, table := t, results, current := none, request,
                  record }.noted e)) o m') :
    Machine.CompletesAs (r.selecting auto')
      (exec (dispatch tell' (r.selecting auto') p targets >>= fun _ => next')
        { m with phase, request, record }) o m' := by
  have hevolves := Pending.keeps_carriedOut r p targets m.results m.table
  rw [exec_dispatch_bind, Pending.carriedOut_selecting] at h
  rw [exec_dispatch_bind, Pending.carriedOut_selecting]
  dsimp only
  -- Both carry out the same effect, so they end in the same fault or go on from the same table.
  rcases hdone : exec (p.carriedOut r targets m.results) m.table with ⟨f | ⟨magnitude, result⟩, t⟩
  · rw [hdone] at h
    cases h
  · rw [hdone] at h hevolves
    dsimp only at h ⊢
    rw [ht.exec_bind (by exact hq)] at h
    rw [ht'.exec_bind (by exact hq)]
    exact hnext t _ _ (GameState.Evolves.distinct hevolves hd) h

/-- A queue that is carried out with targets picked for the player is carried out in the same way
with the player picking them. -/
theorem drain_completesAs {n : Nat} (queue : List Pending) {tell tell' : Tell}
    (ht : Discreet tell) (ht' : Discreet tell') {m m' : Machine} {record : List Event}
    {o : Outcome} (hq : m.Quiet) (hd : m.table.game.Distinct) (hreq : m.request = none)
    (hn : m.activation = n) (hheard : unasked record = m.heard)
    (h : exec (drain tell (r.selecting true) n queue) m = (.ok o, m')) :
    Machine.CompletesAs (r.selecting false)
      (exec (drain tell' (r.selecting false) n queue) { m with request := none, record }) o m' := by
  subst hn
  -- The answers to requests are told by other means than the call before, so `tell'` varies.
  induction queue generalizing tell' m record with
  | nil =>
    rw [drain, exec_finish ht (by exact hq), hreq] at h
    rw [drain, exec_finish ht' (by exact hq)]
    cases h
    refine ⟨[], _, .ended ?_, by simp, rfl, rfl, rfl, unasked_append_congr hheard _⟩
    intro h
    cases h
  | cons p rest ih =>
    -- Whatever came of the first effect, the loop goes on with the rest.
    have hgo : ∀ {tell' : Tell} {t : Table} {phase : Phase} {results : ResultStack}
        {record : List Event} {e : Event}, Discreet tell' → t.game.Distinct →
        unasked record = m.heard →
        exec (goOn tell (r.selecting true) m.activation rest)
          ({ m with table := t, phase, results, queue := rest, current := none }.noted e) =
            (.ok o, m') →
        Machine.CompletesAs (r.selecting false)
          (exec (goOn tell' (r.selecting false) m.activation rest)
            ({ m with table := t, phase, results, queue := rest, current := none, request := none,
                      record }.noted e)) o m' := by
      intro tell' t phase results record e ht' hd hheard h
      rw [exec_goOn _ (by exact rfl)] at h ⊢
      refine ih ht' (m := { m with
        table := t, phase, results, queue := rest, current := none }.noted e) hq hd hreq ?_ h
      exact unasked_append_congr hheard _
    by_cases hsel : p.effect.target.needsSelection = true
    · by_cases hnone : (p.effect.selectable r m.table.game).isEmpty = true
      · rw [exec_drain_nothing tell hsel (by exact hnone), exec_bind,
          exec_complete ht (by exact hq)] at h
        rw [exec_drain_nothing tell' hsel (by exact hnone), exec_bind,
          exec_complete ht' (by exact hq)]
        exact hgo ht' hd hheard h
      · have hsome := Bool.eq_false_iff.mpr hnone
        rw [exec_drain_picked tell hsel (by exact hsome) rfl] at h
        rw [exec_drain_asked tell' hsel (by exact hsome) rfl, exec_suspend ht' (by exact hq)]
        -- The answer is accepted, and what it selects is what is picked for the player.
        have hselected := selected_firstIds (Effect.nodup_candidateIds (e := p.effect)
          (r := r.selecting false) hd.nodup) (Effect.request_maxSelections_nonneg _ _)
        refine Machine.CompletesAs.asked rfl rfl ?_
        change Machine.CompletesAs _ (exec (resume (notify _ _) _ _) _) o m'
        rw [exec_resume _ rfl rfl rfl hselected]
        refine dispatch_completesAs (m := { m with queue := rest, current := some p }) ht
          (discreet_of_quiet (by exact hq)) hq hd p _ h fun t results e hd h => ?_
        rw [exec_proceed]
        refine hgo (discreet_of_quiet (by exact hq)) hd ?_ h
        -- The request is not heard.
        exact (Event.unasked_append ..).trans
          ((congrArg _ (Event.unasked_replicate_targetRequired _ _)).trans
            ((List.append_nil _).trans hheard))
    · have hauto := Bool.eq_false_iff.mpr hsel
      have hrolled := Table.Rolled.autoTargets p.effect r p.source m.table
      rw [exec_drain_collected tell hauto, Effect.autoTargets_selecting] at h
      rw [exec_drain_collected tell' hauto, Effect.autoTargets_selecting]
      dsimp only
      rcases hdone : exec (p.effect.autoTargets r p.source) m.table with ⟨f | targets, t⟩
      · rw [hdone] at h
        cases h
      · rw [hdone] at h hrolled
        obtain ⟨dice, hdice⟩ := hrolled
        have hdt : t.game.Distinct := by
          rw [show t = { m.table with dice } from hdice]
          exact hd
        refine dispatch_completesAs (m := { m with
          queue := rest, current := some p, phase := .autoTargeting, table := t }) ht ht' hq hdt p
          targets h fun t results e hd h => ?_
        exact hgo ht' hd hheard h

/-- The effects of all groups are queued in the same way, and then carried out in the same way. -/
theorem expand_completesAs {n : Nat} {tell tell' : Tell} (ht : Discreet tell)
    (ht' : Discreet tell') {m m' : Machine} {o : Outcome} (groups : List Group)
    (source : Option Card) (hq : m.Quiet) (hd : m.table.game.Distinct) (hresults : m.results = {})
    (hreq : m.request = none) (hn : m.activation = n)
    (h : exec (expand (r.selecting true) source groups >>= fun _ =>
      proceed tell (r.selecting true) n) m = (.ok o, m')) :
    Machine.CompletesAs (r.selecting false)
      (exec (expand (r.selecting false) source groups >>= fun _ =>
        proceed tell' (r.selecting false) n) m) o m' := by
  rw [exec_bind, expand_selecting] at h ⊢
  obtain ⟨f, t, queue, -, hexpand⟩ | ⟨entries, t, hdirect, hexpand⟩ :=
    exec_expand (r := r) source groups hresults
  · rw [hexpand] at h
    cases h
  · rw [hexpand] at h ⊢
    dsimp only at h ⊢
    rw [exec_proceed, exec_goOn _ (by exact hn)] at h ⊢
    -- Magnitudes are drawn with the dice, which leaves the cards.
    have hgame : t.game = m.table.game := by
      have hkept := Direct.game_speculate (r := r) (Direct.chosen r m.table.game groups) m.table
      rw [hdirect] at hkept
      exact hkept
    have hdt : t.game.Distinct := by
      rw [hgame]
      exact hd
    have hdrain := drain_completesAs (m := { m with
      table := t, queue := m.queue ++ entries.map (.ofEntry source) }) _ ht ht' (by exact hq) hdt
      hreq hn rfl h
    rw [← hreq] at hdrain
    exact hdrain

end Engine

/-- Where targets are picked for the player, an activation of a quiet machine that ends without an
error comes to the same as one with a player who answers every request with the first candidates,
as many as may be picked: this one completes with the same outcome, the same game and dice, and the
same events but for the requests. -/
theorem dialogue_of_autoSelect {r : Rules} {m m' : Machine} {o : Outcome} (hq : m.Quiet)
    (hd : m.table.game.Distinct) (groups : List Group) (source : Option Card)
    (h : m.call (r.selecting true) (.start groups source) = (.ok o, m')) :
    ∃ d last,
      Machine.Dialogue (r.selecting false) d (m.call (r.selecting false) (.start groups source))
        o last ∧
      (∀ x ∈ d, x.2 = .pick x.1.firstIds) ∧
      o.phase = .completed ∧ last.phase = .completed ∧
      last.table = m'.table ∧ last.heard = m'.heard := by
  change exec (Engine.start _ _ groups source) m = _ at h
  change Machine.CompletesAs (r.selecting false) (exec (Engine.start _ _ groups source) m) o m'
  have ht := Engine.discreet_of_quiet (r := r.selecting true) hq
  have ht' := Engine.discreet_of_quiet (r := r.selecting false) hq
  -- A call that is refused has no outcome.
  have hfree : m.isBusy = true → r.config.policy ≠ .reject := by
    intro hbusy hreject
    rw [Engine.exec_start_refused _ hbusy (by exact hreject)] at h
    cases h
  rw [Engine.exec_start _ (by exact hfree) (ht _ _ (by exact hq)) rfl] at h
  rw [Engine.exec_start _ (by exact hfree) (ht' _ _ (by exact hq)) rfl]
  exact Engine.expand_completesAs ht ht' groups source (by exact hq) (by exact hd) rfl rfl rfl h

/-- Where an answer to the first request is refused, no dialogue begins with it. -/
theorem Machine.Dialogue.ne_of_refused {r : Rules} {d : List (TargetRequest × Answer)}
    {done : Except EngineError Outcome × Machine} {o : Outcome} {last : Machine}
    (hd : Dialogue r d done o last) {source : Option Card} {x : Play Progress} {t : Table}
    {results : ResultStack} {q : TargetRequest} {left : List (Effect × Int)} {a : Answer}
    {e : SelectionError} (hfollows : Follows r source (exec x t) done)
    (hwaiting : (exec x t).1 = .ok (.waiting results q left))
    (hrefused : (exec (x >>= Direct.goOn r source [a]) t).1 = .ok (.refused e)) :
    ∃ b rest, d = (q, b) :: rest ∧ b ≠ a := by
  have hagrees := answerAll_agrees [a] hfollows
  unfold Agrees at hagrees
  rw [hrefused] at hagrees
  obtain ⟨-, -, hfollows⟩ := hfollows
  rw [hwaiting] at hfollows
  obtain ⟨hok, ⟨p, hw⟩, -, hrequest, -⟩ := hfollows
  cases hd with
  | ended h =>
    rw [Except.ok.inj hok] at h
    exact absurd hw.phase_eq h
  | @asked first _ m _ q' b rest hphase hasked hrest =>
    rw [Except.ok.inj hok] at hasked
    have hsame : q' = q := Option.some.inj (hasked.symm.trans hrequest)
    refine ⟨b, rest, by rw [hsame], ?_⟩
    rintro rfl
    -- The call that answers fails, and no dialogue goes on from there.
    obtain ⟨second, hsecond⟩ := hrest.isOk
    have herror : (m.answer r b).1 = .error (.invalidSelection e) := hagrees.1
    rw [hsecond] at herror
    cases herror

/-- One card is picked for the player and destroyed, and the same comes of it when the player picks
it. -/
theorem dialogue_of_autoSelect_of_one_copper :
    let copper : Card := { serial := 1, instanceId := "copper#1", cardId := "copper" }
    let m : Machine :=
      { table := { game := { zones := { hand := [copper] }, instancesMade := 1 },
                   dice := { twister := { words := #[], used := 0 } } } }
    let groups := [Group.always [{ kind := .known .destroyCard, target := .handCard }, .gold 5]]
    let call := HostCall.start groups none
    ∃ d last,
      Machine.Dialogue (Rules.selecting {} false) d (m.call (Rules.selecting {} false) call)
        { phase := .completed,
          results := [{ kind := .known .destroyCard, success := true, count := 1 },
                      { kind := .known .addGold, success := true, value := 5 }],
          request := none, source := none } last ∧
      (∀ x ∈ d, x.2 = .pick x.1.firstIds) ∧
      last.table = (m.call (Rules.selecting {} true) call).2.table := by
  intro copper m groups call
  have hquiet : m.Quiet := fun o ho => nomatch ho
  have hdistinct : m.table.game.Distinct := by
    refine ⟨Multiset.nodup_singleton _, fun cardId n hn hid => ?_⟩
    have hone : n = 1 := numbered_inj (d := "copper") (Multiset.mem_singleton.mp hid)
    exact absurd hone hn.ne'
  have hdirect : (exec (Direct.activate (Rules.selecting {} true) groups none []) m.table).1 =
      .ok (.finished { items := [{ kind := .known .destroyCard, success := true, count := 1 },
                                 { kind := .known .addGold, success := true, value := 5 }] }) := rfl
  obtain ⟨u, hcall⟩ := call_start_of_finished hquiet rfl hdirect
  obtain ⟨d, last, hdialogue, hanswers, -, -, htable, -⟩ :=
    dialogue_of_autoSelect hquiet hdistinct groups none hcall
  rw [← show (m.call (Rules.selecting {} true) call).2 = u by rw [hcall]] at htable
  exact ⟨d, last, hdialogue, hanswers, htable⟩

/-- That the ids on the table differ is not enough: here the game has not reached the number of a
card on the table, and gives its id to a new card. Then both cards are picked for the player, who
cannot pick them both by their ids. -/
theorem not_dialogue_of_id_still_to_be_made :
    let copper : Card := { serial := 1, instanceId := "copper#1", cardId := "copper" }
    let m : Machine :=
      { table := { game := { zones := { hand := [copper] } },
                   dice := { twister := { words := #[], used := 0 } } } }
    let r : Rules :=
      { catalog := { cards := [{ id := "copper", name := "Copper", kind := .treasure }] } }
    let groups :=
      [Group.always [{ kind := .known .createTempTreasure, createGrade := some 1 },
                     { kind := .known .destroyCard, target := .handCard, maxTargets := 2 }]]
    m.table.game.zones.ids.Nodup ∧
      (m.call (r.selecting true) (.start groups none)).1 =
        .ok { phase := .completed,
              results := [{ kind := .known .createTempTreasure, success := true, count := 1 },
                          { kind := .known .destroyCard, success := true, count := 2 }],
              request := none, source := none } ∧
      ¬ ∃ d o last,
        Machine.Dialogue (r.selecting false) d (m.call (r.selecting false) (.start groups none))
          o last ∧
        (∀ x ∈ d, x.2 = .pick x.1.firstIds) ∧ o.phase = .completed := by
  intro copper m r groups
  have hquiet : m.Quiet := fun o ho => nomatch ho
  refine ⟨Multiset.nodup_singleton _, ?_, ?_⟩
  · have hdirect : (exec (Direct.activate (r.selecting true) groups none []) m.table).1 =
        .ok (.finished
          { items := [{ kind := .known .createTempTreasure, success := true, count := 1 },
                      { kind := .known .destroyCard, success := true, count := 2 }] }) := by
      dsimp only [m, copper, r, groups]
      rfl
    obtain ⟨u, hcall⟩ := call_start_of_finished hquiet rfl hdirect
    rw [hcall]
  · rintro ⟨d, o, last, hdialogue, hanswers, hphase⟩
    -- The card that is made gets the id of the one in hand, and so the answer names it twice.
    let again : Card := { copper with temporary := true }
    let q : TargetRequest :=
      { targetKind := .handCard, maxSelections := 2, candidates := [copper, again],
        effectKind := .known .destroyCard }
    have hdirect : (exec (Direct.activate (r.selecting false) groups none []) m.table).1 =
        .ok (.waiting
          { items := [{ kind := .known .createTempTreasure, success := true, count := 1 }] } q
          [({ kind := .known .destroyCard, target := .handCard, maxTargets := 2 }, 0)]) := by
      dsimp only [m, copper, r, groups, q, again]
      rfl
    have hrefused : (exec (Direct.activate (r.selecting false) groups none [] >>=
        Direct.goOn (r.selecting false) none [.pick ["copper#1", "copper#1"]]) m.table).1 =
          .ok (.refused .repeated) := by
      dsimp only [m, copper, r, groups]
      rfl
    have hfollows := Engine.start_follows (r := r.selecting false)
      (Engine.discreet_of_quiet (r := r.selecting false) hquiet) hquiet (fun h => nomatch h) groups
      none
    obtain ⟨b, rest, rfl, hne⟩ := hdialogue.ne_of_refused hfollows hdirect hrefused
    exact hne (hanswers _ (List.mem_cons_self ..))

end Treasury
