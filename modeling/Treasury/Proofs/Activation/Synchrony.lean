import Treasury.Proofs.Activation.Prompting
import Treasury.Proofs.Activation.Rest

/-!
# Answering at once and answering later

The requests of an activation can be answered by the host after the call that made them, or by an
observer from inside their notifications. Both ways the same is done to the game, and at last the
activation is completed. But where a request came up, the call that starts the activation has no
more to tell of it when it returns: the machine was cleared when the activation completed, inside
the call, and the outcome is made of what is left then.

* `Machine.Settles` compares a call whose requests are answered at once with a dialogue.
* `drain_settles` is the induction over the queue. An answer at once carries out the rest of the
  queue inside the notification, so the calls are nested as deep as there are requests.
* `prompted_outcome_iff` says what the call that starts the activation returns.
-/

namespace Treasury

open Observer (Prompts)

/-- A call whose requests are answered at once leaves what the last call of the dialogue leaves, up
to the observers, where the dialogue gives the same answers. If there is no request, its outcome is
that of the dialogue; otherwise its outcome is that of a machine that is cleared, while that of the
dialogue has results, those from before among them. -/
structure Machine.Settles (before : ResultStack) (d : List (TargetRequest × Answer)) (o : Outcome)
    (last : Machine) (done : Except EngineError Outcome × Machine) : Prop where
  /-- The call ends like the dialogue, with no answer left. -/
  done_eq : ∃ u, done = (.ok (if d = [] then o else last.outcome), u) ∧ last.Twins u ∧
    Prompts [] u.observers
  /-- The dialogue ends with a completed activation. -/
  completed : o.phase = .completed
  /-- The machine is cleared then. -/
  cleared : last.outcome = { phase := .completed, results := [], request := none, source := none }
  /-- Results from before are kept. -/
  kept : before.items <+: o.results
  /-- An effect whose targets were requested has a result. -/
  answered : d ≠ [] → o.results ≠ []

/-- Results that are kept were kept before they were complete. -/
theorem Machine.Settles.of_push {before : ResultStack} {result : EffectResult}
    {d : List (TargetRequest × Answer)} {o : Outcome} {last : Machine}
    {done : Except EngineError Outcome × Machine}
    (h : Settles (before.push result) d o last done) : Settles before d o last done :=
  { h with kept := (List.prefix_append _ _).trans h.kept }

/-- Twins are at the same point of an activation. -/
theorem Machine.Twins.outcome_eq {m u : Machine} (h : m.Twins u) : u.outcome = m.outcome := by
  obtain ⟨_, _, _, rfl⟩ := h
  rfl

namespace Engine

variable {r : Rules} {tell : Tell} {k : Nat} {answers : List Answer} {m u last : Machine}
  {before : ResultStack} {d : List (TargetRequest × Answer)} {o : Outcome}
  {next next' : Run Outcome}

/-- Telling of anything but a request changes nothing for what comes after. -/
theorem tell_settles (ht : Discreet tell) (hq : m.Quiet) (htwins : m.Twins u)
    (hp : Prompts answers u.observers) {e : Event} (he : e.moment ≠ .targetRequired)
    (h : Machine.Dialogue r d (exec (tell e >>= fun _ => next) m) o last)
    (hnext : ∀ v, (m.noted e).Twins v → Prompts answers v.observers →
      Machine.Dialogue r d (exec next (m.noted e)) o last →
      Machine.Settles before d o last (exec next' v)) :
    Machine.Settles before d o last (exec (notify r (k + 1) e >>= fun _ => next') u) := by
  rw [ht.exec_bind hq] at h
  obtain ⟨v, htold, htwins', hv⟩ := exec_notify_idle r (k := k) hp fun hrequest =>
    absurd hrequest he
  rw [exec_bind, htold]
  refine hnext v ?_ hv h
  obtain ⟨_, _, _, rfl⟩ := IsTrans.trans m u v htwins htwins'
  exact ⟨_, _, _, rfl⟩

/-- After an effect of the first machine, one with its result, what comes next settles for its twin
if it comes to an end for the machine itself. -/
def SettlesAfter (r : Rules) (answers : List Answer) (m : Machine)
    (d : List (TargetRequest × Answer)) (o : Outcome) (last : Machine) (next next' : Run Outcome) :
    Prop :=
  ∀ (phase : Phase) (t : Table) (result : EffectResult) (e : Event) (v : Machine),
    ({ m with phase, table := t, results := m.results.push result, current := none }.noted e).Twins
      v →
    Prompts answers v.observers →
    Machine.Dialogue r d (exec next ({ m with
      phase, table := t, results := m.results.push result, current := none }.noted e)) o last →
    Machine.Settles (m.results.push result) d o last (exec next' v)

theorem complete_settles (ht : Discreet tell) (hq : m.Quiet) (htwins : m.Twins u)
    (hp : Prompts answers u.observers) (p : Pending) (result : EffectResult) (magnitude : Int)
    (hnext : SettlesAfter r answers m d o last next next')
    (h : Machine.Dialogue r d (exec (complete tell p result magnitude >>= fun _ => next) m)
      o last) :
    Machine.Settles (m.results.push result) d o last
      (exec (complete (notify r (k + 1)) p result magnitude >>= fun _ => next') u) := by
  obtain ⟨observers, record, reports, rfl⟩ := htwins
  unfold complete at h ⊢
  rw [bind_assoc, exec_modify_bind] at h ⊢
  refine tell_settles ht (by exact hq) ⟨_, _, _, rfl⟩ (by exact hp) ?_ h ?_
  · simp [Event.moment]
  · exact hnext m.phase m.table result _

theorem dispatch_settles (ht : Discreet tell) (hq : m.Quiet) (htwins : m.Twins u)
    (hp : Prompts answers u.observers) (p : Pending) (targets : List Card)
    (hnext : SettlesAfter r answers m d o last next next')
    (h : Machine.Dialogue r d (exec (dispatch tell r p targets >>= fun _ => next) m) o last) :
    ∃ result, Machine.Settles (m.results.push result) d o last
      (exec (dispatch (notify r (k + 1)) r p targets >>= fun _ => next') u) := by
  obtain ⟨observers, record, reports, rfl⟩ := htwins
  rw [exec_dispatch_bind] at h ⊢
  dsimp only
  rcases hdone : exec (p.carriedOut r targets m.results) m.table with ⟨f | ⟨magnitude, result⟩, t⟩
  · -- The call would fail, and no dialogue begins with such a call.
    rw [hdone] at h
    obtain ⟨_, hok⟩ := h.isOk
    cases hok
  · rw [hdone] at h
    refine ⟨result, ?_⟩
    refine tell_settles ht (by exact hq) ⟨_, _, _, rfl⟩ (by exact hp) ?_ h ?_
    · simp [Event.moment]
    · exact hnext .dispatching t result _

theorem finish_settles (ht : Discreet tell) (hq : m.Quiet) (htwins : m.Twins u)
    (hp : Prompts (d.map (·.2)) u.observers) (hreq : m.request = none)
    (h : Machine.Dialogue r d (exec (finish tell) m) o last) :
    Machine.Settles m.results d o last (exec (finish (notify r (k + 1))) u) := by
  obtain ⟨observers, record, reports, rfl⟩ := htwins
  rw [exec_finish ht hq, hreq] at h
  cases h with
  | ended =>
    -- Observers are told when the machine is cleared, but the outcome is that of before.
    obtain ⟨v, htold, htwins, hv⟩ := exec_notify_idle r (k := k) (e := .completed m.source)
      (m := { m with phase := .completed, queue := [], results := {}, current := none,
                     source := none, observers, record, reports }) hp (fun he => nomatch he)
    have hdone : exec (finish (notify r (k + 1))) { m with observers, record, reports } =
        (.ok { phase := .completed, results := m.results.items, request := none,
               source := m.source }, v) := by
      simp only [finish, exec_bind, exec_modify, exec_get, exec_set]
      rw [htold, ← hreq]
      rfl
    refine ⟨⟨v, ?_, ?_, hv⟩, rfl, ?_, List.prefix_rfl, fun hd => absurd rfl hd⟩
    · rw [hdone, if_pos rfl]
    · obtain ⟨observers, record, reports, rfl⟩ := htwins
      exact ⟨observers, record, reports, by rw [hreq]; rfl⟩
    · rfl
  | asked hphase => cases hphase

theorem SettlesAfter.proceed {n : Nat}
    (h : SettlesAfter r answers m d o last (goOn tell r n m.queue)
      (goOn (notify r (k + 1)) r n m.queue)) :
    SettlesAfter r answers m d o last (proceed tell r n) (proceed (notify r (k + 1)) r n) := by
  intro phase t result e v htwins hp hd
  have hv : v.queue = m.queue := by
    obtain ⟨_, _, _, rfl⟩ := htwins
    rfl
  rw [exec_proceed] at hd ⊢
  rw [hv]
  exact h phase t result e v htwins hp hd

/-- An answer does the same to a machine and to its twin, and so does what comes after it. -/
theorem give_settles {n : Nat} {p : Pending} {q : TargetRequest} (hq : m.Quiet)
    (htwins : m.Twins u) (hphase : m.phase = .awaitingTarget) (hcurrent : m.current = some p)
    (hrequest : m.request = some q) (hn : m.activation = n) (hp : Prompts answers u.observers)
    (a : Answer)
    (hnext : ∀ tell, Discreet tell → SettlesAfter r answers { m with request := none } d o last
      (goOn tell r n m.queue) (goOn (notify r (k + 1)) r n m.queue))
    (h : Machine.Dialogue r d (m.answer r a) o last) :
    ∃ result, Machine.Settles (m.results.push result) d o last
      (exec (give (notify r (k + 1)) r a) u) := by
  subst hn
  obtain ⟨observers, record, reports, rfl⟩ := htwins
  have ht := discreet_of_quiet (r := r) hq
  cases a with
  | pick ids =>
    change Machine.Dialogue r d (exec (resume (notify r _) r ids) m) o last at h
    cases hids : selected q ids with
    | error e =>
      -- The dialogue goes on, so the selection was accepted.
      rw [exec_resume_refused _ hphase hrequest hids] at h
      obtain ⟨_, hok⟩ := h.isOk
      cases hok
    | ok targets =>
      rw [exec_resume _ hphase hcurrent hrequest hids] at h
      rw [give, exec_resume _ (by exact hphase) (by exact hcurrent) (by exact hrequest) hids]
      exact dispatch_settles (m := { m with request := none }) ht hq ⟨_, _, _, rfl⟩ hp p targets
        (hnext _ ht).proceed h
  | pass =>
    change Machine.Dialogue r d (exec (cancel (notify r _) r) m) o last at h
    rw [exec_cancel _ hphase hcurrent] at h
    rw [give, exec_cancel _ (by exact hphase) (by exact hcurrent)]
    exact ⟨_, complete_settles (m := { m with request := none }) ht hq ⟨_, _, _, rfl⟩ hp p _ _
      (hnext _ ht).proceed h⟩

/-- Where a request has an answer ready, the rest of the queue is carried out inside its
notification. -/
theorem suspend_settles (ht : Discreet tell) (hq : m.Quiet) (htwins : m.Twins u)
    (hp : Prompts (d.map (·.2)) u.observers) (hk : d.length ≤ k) (q : TargetRequest)
    (h : Machine.Dialogue r d (exec (suspend tell q) m) o last)
    (hgive : ∀ (a : Answer) (rest : List (TargetRequest × Answer)) (k : Nat) (v : Machine),
      ({ m with phase := .awaitingTarget, request := some q }.noted (.targetRequired q)).Twins v →
      Prompts (rest.map (·.2)) v.observers → rest.length ≤ k →
      Machine.Dialogue r rest
        (({ m with phase := .awaitingTarget, request := some q }.noted
          (.targetRequired q)).answer r a) o last →
      ∃ result, Machine.Settles (m.results.push result) rest o last
        (exec (give (notify r (k + 1)) r a) v)) :
    Machine.Settles m.results d o last (exec (suspend (notify r (k + 1)) q) u) := by
  obtain ⟨observers, record, reports, rfl⟩ := htwins
  rw [exec_suspend ht hq] at h
  cases h with
  | ended hphase => exact absurd rfl hphase
  | @asked _ _ _ _ _ a rest _ _ hrest =>
    -- There is a level of notifications left, for there is an answer left.
    obtain ⟨k, rfl⟩ :=
      Nat.exists_eq_succ_of_ne_zero (Nat.ne_of_gt (Nat.lt_of_lt_of_le (Nat.succ_pos _) hk))
    obtain ⟨v, htwins, hv, hnotify⟩ := exec_notify_prompt r (k := k + 1) (e := .targetRequired q)
      (m := { m with
        phase := .awaitingTarget, request := some q, observers, record, reports }) hp rfl
    have hsuspended : ({ m with phase := .awaitingTarget, request := some q }.noted
        (.targetRequired q)).Twins v := by
      obtain ⟨_, _, _, rfl⟩ := htwins
      exact ⟨_, _, _, rfl⟩
    obtain ⟨_, hgiven⟩ := hgive a rest k v hsuspended hv (Nat.le_of_succ_le_succ hk) hrest
    obtain ⟨w, hdone, hlast, hw⟩ := hgiven.done_eq
    rw [hdone] at hnotify
    obtain ⟨x, htold, htwins', hx⟩ := hnotify hw
    have htwin : last.Twins x := IsTrans.trans last w x hlast htwins'
    refine ⟨⟨x, ?_, htwin, hx⟩, hgiven.completed, hgiven.cleared, hgiven.of_push.kept, ?_⟩
    · -- The outcome is made after the notification, when the activation is over.
      simp only [suspend, exec_bind, exec_modify]
      rw [htold, if_neg (List.cons_ne_nil _ _), ← htwin.outcome_eq]
      rfl
    · -- The result of the effect in work is among those that are kept.
      intro _ hnone
      have hkept := hgiven.kept
      rw [hnone] at hkept
      simp at hkept

/-- The queue is carried out in the same way whether requests are answered at once or later. -/
theorem drain_settles {n : Nat} (queue : List Pending) (ht : Discreet tell) (hq : m.Quiet)
    (htwins : m.Twins u) (hp : Prompts (d.map (·.2)) u.observers) (hk : d.length ≤ k)
    (hreq : m.request = none) (hn : m.activation = n)
    (h : Machine.Dialogue r d (exec (drain tell r n queue) m) o last) :
    Machine.Settles m.results d o last (exec (drain (notify r (k + 1)) r n queue) u) := by
  -- An answer starts a call of its own on either side, with its own way to tell, and uses up the
  -- first of the answers.
  induction queue generalizing tell m u d k with
  | nil =>
    rw [drain] at h ⊢
    exact finish_settles ht hq htwins hp hreq h
  | cons p rest ih =>
    -- Whatever came of the first effect, the loop goes on with the rest.
    have hgo : ∀ {tell : Tell} {k : Nat} {m : Machine} {d : List (TargetRequest × Answer)},
        Discreet tell → m.Quiet → d.length ≤ k → m.request = none → m.activation = n →
        SettlesAfter r (d.map (·.2)) m d o last (goOn tell r n rest)
          (goOn (notify r (k + 1)) r n rest) := by
      intro tell k m d ht hq hk hreq hn phase t result e v htwins hp h
      obtain ⟨observers, record, reports, rfl⟩ := htwins
      rw [exec_goOn _ (by exact hn)] at h ⊢
      exact ih ht (by exact hq) ⟨_, _, _, rfl⟩ hp hk hreq hn h
    obtain ⟨observers, record, reports, rfl⟩ := htwins
    by_cases hsel : p.effect.target.needsSelection = true
    · by_cases hnone : (p.effect.selectable r m.table.game).isEmpty = true
      · rw [exec_drain_nothing tell hsel hnone] at h
        rw [exec_drain_nothing _ hsel (by exact hnone)]
        exact (complete_settles (m := { m with queue := rest, current := some p }) ht hq
          ⟨_, _, _, rfl⟩ hp p _ _ (hgo ht hq hk hreq hn) h).of_push
      · have hsome := Bool.eq_false_iff.mpr hnone
        by_cases hauto : r.config.autoSelect = true
        · rw [exec_drain_picked tell hsel hsome hauto] at h
          rw [exec_drain_picked _ hsel (by exact hsome) hauto]
          obtain ⟨_, hdone⟩ := dispatch_settles (m := { m with queue := rest, current := some p })
            ht hq ⟨_, _, _, rfl⟩ hp p _ (hgo ht hq hk hreq hn) h
          exact hdone.of_push
        · have hask := Bool.eq_false_iff.mpr hauto
          rw [exec_drain_asked tell hsel hsome hask] at h
          rw [exec_drain_asked _ hsel (by exact hsome) hask]
          refine suspend_settles (m := { m with queue := rest, current := some p }) ht hq
            ⟨_, _, _, rfl⟩ hp hk _ h fun a left k v htwins hp hk h => ?_
          refine give_settles (by exact hq) htwins rfl rfl rfl hn hp a (fun tell ht => ?_) h
          refine hgo ht ?_ hk ?_ ?_
          exacts [hq, rfl, hn]
    · have hcollect := Bool.eq_false_iff.mpr hsel
      rw [exec_drain_collected tell hcollect] at h
      rw [exec_drain_collected _ hcollect]
      dsimp only
      rcases hdone : exec (p.effect.autoTargets r p.source) m.table with ⟨f | targets, t⟩
      · rw [hdone] at h
        obtain ⟨_, hok⟩ := h.isOk
        cases hok
      · rw [hdone] at h
        obtain ⟨_, hdone⟩ := dispatch_settles (m := { m with
            queue := rest, current := some p, phase := .autoTargeting, table := t })
          ht hq ⟨_, _, _, rfl⟩ hp p _ (hgo ht hq hk hreq hn) h
        exact hdone.of_push

/-- The effects of all groups are queued in the same way, and then carried out in the same way. -/
theorem expand_settles {n : Nat} (ht : Discreet tell) (groups : List Group) (source : Option Card)
    (hq : m.Quiet) (htwins : m.Twins u) (hp : Prompts (d.map (·.2)) u.observers) (hk : d.length ≤ k)
    (hresults : m.results = {}) (hreq : m.request = none) (hn : m.activation = n)
    (h : Machine.Dialogue r d
      (exec (expand r source groups >>= fun _ => proceed tell r n) m) o last) :
    Machine.Settles {} d o last
      (exec (expand r source groups >>= fun _ => proceed (notify r (k + 1)) r n) u) := by
  obtain ⟨observers, record, reports, rfl⟩ := htwins
  rw [exec_bind] at h ⊢
  obtain ⟨f, t, queue, -, hexpand⟩ | ⟨entries, t, hdirect, hexpand⟩ :=
    exec_expand (r := r) source groups hresults
  · rw [hexpand] at h
    obtain ⟨_, hok⟩ := h.isOk
    cases hok
  · -- The twin draws the same magnitudes.
    obtain ⟨f, t', queue, hdirect', -⟩ | ⟨entries', t', hdirect', hexpand'⟩ :=
      exec_expand (r := r) (m := { m with observers, record, reports }) source groups hresults
    · cases hdirect.symm.trans hdirect'
    · cases hdirect.symm.trans hdirect'
      rw [hexpand] at h
      rw [hexpand']
      dsimp only at h ⊢
      rw [exec_proceed, exec_goOn _ (by exact hn)] at h ⊢
      rw [← hresults]
      exact drain_settles (m := { m with
        table := t, queue := m.queue ++ entries.map (.ofEntry source) }) _ ht (by exact hq)
        ⟨_, _, _, rfl⟩ hp hk hreq hn h

end Engine

/-- An activation whose requests are answered at once settles as the dialogue does in which the same
answers are given later. -/
theorem start_settles {r : Rules} {m : Machine} (hq : m.Quiet) {observers : List Observer}
    {d : List (TargetRequest × Answer)} (hp : Prompts (d.map (·.2)) observers)
    {groups : List Group} {source : Option Card} {o : Outcome} {last : Machine}
    (h : Machine.Dialogue r d (m.call r (.start groups source)) o last) :
    Machine.Settles {} d o last ({ m with observers }.call r (.start groups source)) := by
  have hdeep : d.length ≤ observers.countP (·.isOrder) := by
    have hlength := hp.length_le
    rwa [List.length_map] at hlength
  change Machine.Dialogue r d (exec (Engine.start _ r groups source) m) o last at h
  change Machine.Settles {} d o last (exec (Engine.start (Engine.notify r
    (observers.countP (·.isOrder) + 1)) r groups source) { m with observers })
  have ht := Engine.discreet_of_quiet (r := r) hq
  -- A call that is refused has no outcome.
  have hfree : m.isBusy = true → r.config.policy ≠ .reject := by
    intro hbusy hreject
    rw [Engine.exec_start_refused _ hbusy hreject] at h
    obtain ⟨_, hok⟩ := h.isOk
    cases hok
  obtain ⟨u, htold, htwins, hu⟩ := Engine.exec_notify_idle r (k := observers.countP (·.isOrder))
    (e := .started source) (m := { m with
      observers, activation := m.activation + 1, queue := [], results := {}, current := none,
      request := none, source }) hp (fun he => nomatch he)
  rw [Engine.exec_start _ hfree (ht _ _ (by exact hq)) rfl] at h
  obtain ⟨_, _, _, rfl⟩ := htwins
  rw [Engine.exec_start _ (by exact hfree) (by exact htold) rfl]
  exact Engine.expand_settles ht groups source (by exact hq) ⟨_, _, _, rfl⟩ hu hdeep rfl rfl rfl h

/-- An activation whose requests are answered from inside their notifications completes and leaves
the game and the dice as an activation does whose requests are given the same answers later. The
call that starts it returns the results and the source of the last of those calls if no request came
up; otherwise it returns no results and no source. -/
theorem prompted_outcome_iff {r : Rules} {m : Machine} (hq : m.Quiet) {observers : List Observer}
    {d : List (TargetRequest × Answer)} (hp : Prompts (d.map (·.2)) observers)
    {groups : List Group} {source : Option Card} {o : Outcome} {last : Machine}
    (h : Machine.Dialogue r d (m.call r (.start groups source)) o last) :
    ∃ first u, ({ m with observers } : Machine).call r (.start groups source) = (.ok first, u) ∧
      first.phase = .completed ∧ o.phase = .completed ∧ u.table = last.table ∧
      (first.results = o.results ∧ first.source = o.source ↔ d = []) ∧
      (d ≠ [] → first.results = [] ∧ first.source = none) := by
  have hsettles := start_settles hq hp h
  obtain ⟨u, hdone, htwins, -⟩ := hsettles.done_eq
  have htable : u.table = last.table := by
    obtain ⟨_, _, _, rfl⟩ := htwins
    rfl
  -- If nothing was asked, the outcome is told as it is; else it comes after all has been cleared.
  by_cases hd : d = []
  · rw [if_pos hd] at hdone
    exact ⟨o, u, hdone, hsettles.completed, hsettles.completed, htable,
      iff_of_true ⟨rfl, rfl⟩ hd, fun hne => absurd hd hne⟩
  · rw [if_neg hd, hsettles.cleared] at hdone
    refine ⟨_, u, hdone, rfl, hsettles.completed, htable, iff_of_false ?_ hd, fun _ => ⟨rfl, rfl⟩⟩
    rintro ⟨hresults, -⟩
    exact hsettles.answered hd hresults.symm

/-- A request that is cancelled at once. -/
theorem prompted_outcome_of_one_cancel :
    let copper : Card := { serial := 1, instanceId := "copper#1", cardId := "copper" }
    let m : Machine :=
      { table := { game := { zones := { hand := [copper] } },
                   dice := { twister := { words := #[], used := 0 } } } }
    let groups := [Group.always [{ kind := .known .destroyCard, target := .handCard }, .gold 5]]
    let observers := [.order { moment := .targetRequired, command := .cancel }]
    ∃ d o last first u, d.map (·.2) = [.pass] ∧
      Machine.Dialogue {} d (m.call {} (.start groups none)) o last ∧
      ({ m with observers } : Machine).call {} (.start groups none) = (.ok first, u) ∧
      u.table = last.table ∧ first.phase = .completed ∧ first.results ≠ o.results := by
  intro copper m groups observers
  have hquiet : m.Quiet := fun o ho => nomatch ho
  have hdirect : (exec (Direct.activate {} groups none [] >>= Direct.goOn {} none [.pass])
      m.table).1 = .ok (.finished
        { items := [{ kind := .known .destroyCard, success := false },
                    { kind := .known .addGold, success := true, value := 5 }] }) := by
    dsimp only [m, copper, groups]
    rfl
  obtain ⟨d, last, hanswers, hdialogue⟩ := dialogue_of_finished [.pass]
    (Engine.start_follows (r := {}) (Engine.discreet_of_quiet (r := {}) hquiet) hquiet
      (fun h => nomatch h) groups none) hdirect
  -- The one order gives the one answer of the dialogue.
  have hprompts : Prompts (d.map (·.2)) observers := by
    rw [hanswers]
    exact Observer.prompts_orders [.pass]
  obtain ⟨first, u, hcall, hphase, -, htable, -, hcleared⟩ :=
    prompted_outcome_iff hquiet hprompts hdialogue
  have hne : d ≠ [] := by
    rintro rfl
    cases hanswers
  refine ⟨d, _, last, first, u, hanswers, hdialogue, hcall, htable, hphase, ?_⟩
  rw [(hcleared hne).1]
  exact fun h => nomatch h

/-- A card is destroyed that an observer picks at once. The game is as if it were picked later, but
the outcome does not tell of it. -/
theorem prompted_outcome_ne_of_one_pick :
    let copper : Card := { serial := 1, instanceId := "copper#1", cardId := "copper" }
    let m : Machine :=
      { table := { game := { zones := { hand := [copper] } },
                   dice := { twister := { words := #[], used := 0 } } } }
    let groups := [Group.always [{ kind := .known .destroyCard, target := .handCard }]]
    let observers := [.order { moment := .targetRequired, command := .resume ["copper#1"] }]
    ∃ d last u, d.map (·.2) = [.pick ["copper#1"]] ∧
      Machine.Dialogue {} d (m.call {} (.start groups (some copper)))
        { phase := .completed,
          results := [{ kind := .known .destroyCard, success := true, count := 1 }],
          request := none, source := some copper } last ∧
      ({ m with observers } : Machine).call {} (.start groups (some copper)) =
        (.ok { phase := .completed, results := [], request := none, source := none }, u) := by
  intro copper m groups observers
  have hquiet : m.Quiet := fun o ho => nomatch ho
  have hdirect : (exec (Direct.activate {} groups (some copper) [] >>=
      Direct.goOn {} (some copper) [.pick ["copper#1"]]) m.table).1 =
        .ok (.finished { items := [{ kind := .known .destroyCard, success := true,
                                     count := 1 }] }) := by
    dsimp only [m, copper, groups]
    rfl
  obtain ⟨d, last, hanswers, hdialogue⟩ := dialogue_of_finished [.pick ["copper#1"]]
    (Engine.start_follows (r := {}) (Engine.discreet_of_quiet (r := {}) hquiet) hquiet
      (fun h => nomatch h) groups (some copper)) hdirect
  have hprompts : Prompts (d.map (·.2)) observers := by
    rw [hanswers]
    exact Observer.prompts_orders [.pick ["copper#1"]]
  have hsettles := start_settles hquiet hprompts hdialogue
  obtain ⟨u, hdone, -, -⟩ := hsettles.done_eq
  have hne : d ≠ [] := by
    rintro rfl
    cases hanswers
  rw [if_neg hne, hsettles.cleared] at hdone
  exact ⟨d, last, u, hanswers, hdialogue, hdone⟩

end Treasury
