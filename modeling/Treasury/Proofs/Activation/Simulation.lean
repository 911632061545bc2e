import Treasury.Proofs.Activation.Direct
import Treasury.Proofs.Activation.Quiet

/-!
# The machine follows the direct account

Between two calls the machine keeps what is left of an activation in separate fields: the effect
that waits, the queue behind it, the request and the results so far. The theorems here say that
these fields always add up to where `Direct.interpret` stands, call by call.

* `Machine.Waiting` is what holds of a machine that waits for an answer, and `Follows` compares what
  a call comes to with the direct account of it.
* `drain_follows` is the induction over the queue; `start_follows` and `answer_follows` are the
  statements for the calls of a host.
* `converse_agrees` puts the calls of a whole activation together.
-/

namespace Treasury

/-- What the direct account says about an entry of the queue. -/
def Pending.entry (p : Pending) : Effect × Int := (p.effect, p.speculative)

/-- An entry of the queue as it is made from an effect and its magnitude. -/
def Pending.ofEntry (source : Option Card) (x : Effect × Int) : Pending :=
  { effect := x.1, speculative := x.2, source }

/-- An entry belongs to a card, and its magnitude is that of its effect where it is a fixed one. -/
structure Pending.Honest (source : Option Card) (p : Pending) : Prop where
  /-- The entry belongs to the card. -/
  source_eq : p.source = source
  /-- A fixed magnitude is that of the effect. -/
  speculative_eq : p.effect.isDynamic = false → p.speculative = p.effect.value

/-- The magnitude of an effect is fixed unless it is computed. -/
theorem Effect.magnitude_of_fixed {e : Effect} (h : e.isDynamic = false) (r : Rules)
    (results : ResultStack) (targets : List Card) :
    e.magnitude r results targets = pure e.value := by
  unfold isDynamic at h
  unfold magnitude
  split
  · next s hs =>
    rw [hs] at h
    rw [if_pos (by simpa using h)]
  · rfl

namespace Pending.Honest

variable {r : Rules} {p : Pending} {source : Option Card} (hp : p.Honest source)

include hp

/-- The magnitude that counts is the one that the effect has now. -/
theorem magnitude_eq (targets : List Card) (results : ResultStack) :
    p.magnitude r targets results = p.effect.magnitude r results targets := by
  unfold Pending.magnitude
  by_cases hdyn : p.effect.isDynamic = true
  · rw [if_pos hdyn]
  · rw [if_neg hdyn, Effect.magnitude_of_fixed (Bool.eq_false_iff.mpr hdyn),
      hp.speculative_eq (Bool.eq_false_iff.mpr hdyn)]

/-- The machine and the direct account carry an effect out alike. -/
theorem carryOut_eq (targets : List Card) (results : ResultStack) :
    Direct.carryOut r p.effect targets results = (·.2) <$> p.carriedOut r targets results := by
  unfold Direct.carryOut Pending.carriedOut
  rw [hp.magnitude_eq]
  simp only [map_bind, map_pure, bind_pure]

end Pending.Honest

namespace Engine

variable {r : Rules} {m : Machine}

/-- Queueing effects draws their magnitudes in order. -/
theorem exec_forM_enqueue (source : Option Card) (effects : List Effect) (hm : m.results = {}) :
    (∃ f t queue, exec (Direct.speculate r effects) m.table = (.error f, t) ∧
      exec (effects.forM (enqueue r source)) m =
        (.error (.fault f), { m with table := t, queue })) ∨
    ∃ entries t, exec (Direct.speculate r effects) m.table = (.ok entries, t) ∧
      exec (effects.forM (enqueue r source)) m =
        (.ok (), { m with table := t, queue := m.queue ++ entries.map (.ofEntry source) }) := by
  induction effects generalizing m with
  | nil => exact .inr ⟨[], m.table, rfl, by simp⟩
  | cons e rest ih =>
    -- The magnitude is drawn with no results and no targets, as the direct account draws it.
    have hdrawn : exec (e.magnitude r m.results []) m.table =
        exec (e.magnitude r {} []) m.table := by rw [hm]
    change (∃ f t queue, _ ∧ exec (enqueue r source e >>= fun _ => rest.forM _) m = _) ∨
      ∃ entries t, _ ∧ exec (enqueue r source e >>= fun _ => rest.forM _) m = _
    simp only [Direct.speculate, exec_bind, exec_enqueue, hdrawn]
    rcases exec (e.magnitude r {} []) m.table with ⟨f | n, t⟩
    · exact .inl ⟨f, t, m.queue, rfl, rfl⟩
    · obtain ⟨f, u, queue, hspec, hrest⟩ | ⟨entries, u, hspec, hrest⟩ :=
        ih (m := { m with
          table := t, queue := m.queue ++ [{ effect := e, speculative := n, source }] }) hm
      · dsimp only at hspec
        exact .inl ⟨f, u, queue, by simp only [hspec], hrest⟩
      · dsimp only at hspec
        refine .inr ⟨(e, n) :: entries, u, by simp only [hspec, exec_pure], ?_⟩
        simp only [hrest, List.map_cons, List.append_assoc, List.singleton_append]
        rfl

/-- Queueing the effects of all groups draws their magnitudes in order, since the dice do not count
for the conditions. -/
theorem exec_expand (source : Option Card) (groups : List Group) (hm : m.results = {}) :
    (∃ f t queue, exec (Direct.speculate r (Direct.chosen r m.table.game groups)) m.table =
        (.error f, t) ∧
      exec (expand r source groups) m = (.error (.fault f), { m with table := t, queue })) ∨
    ∃ entries t, exec (Direct.speculate r (Direct.chosen r m.table.game groups)) m.table =
        (.ok entries, t) ∧
      exec (expand r source groups) m =
        (.ok (), { m with table := t, queue := m.queue ++ entries.map (.ofEntry source) }) := by
  induction groups generalizing m with
  | nil => exact .inr ⟨[], m.table, rfl, by simp [expand]⟩
  | cons grp rest ih =>
    -- The results are still empty, so the conditions are tested as the direct account tests them.
    have hstep : exec (expand r source (grp :: rest)) m =
        exec ((grp.chosen r m.table.game {}).forM (enqueue r source) >>= fun _ =>
          expand r source rest) m := by
      rw [← hm]
      rfl
    simp only [hstep, exec_bind, Direct.chosen, List.flatMap_cons, Direct.speculate_append]
    obtain ⟨f, t, queue, hspec, hhead⟩ | ⟨entries, t, hspec, hhead⟩ :=
      exec_forM_enqueue (r := r) source (grp.chosen r m.table.game {}) hm
    · exact .inl ⟨f, t, queue, by simp only [hspec], by simp only [hhead]⟩
    · -- Drawing leaves the game, so the other groups choose as they would have at first.
      have hgame : t.game = m.table.game := by
        have hkept := Direct.game_speculate (r := r) (grp.chosen r m.table.game {}) m.table
        rw [hspec] at hkept
        exact hkept
      simp only [hspec, hhead]
      obtain ⟨f, u, queue, hspec', hrest⟩ | ⟨more, u, hspec', hrest⟩ :=
        ih (m := { m with table := t, queue := m.queue ++ entries.map (.ofEntry source) }) hm
      · dsimp only at hspec'
        rw [Direct.chosen, hgame] at hspec'
        exact .inl ⟨f, u, queue, by simp only [hspec'], hrest⟩
      · dsimp only at hspec'
        rw [Direct.chosen, hgame] at hspec'
        refine .inr ⟨entries ++ more, u, by simp only [hspec', exec_pure], ?_⟩
        simp only [hrest, List.map_append, List.append_assoc]

end Engine

/-- The machine waits for the answer to an up-to-date request, and what it holds back is queued as
it should be. -/
structure Machine.Waiting (r : Rules) (m : Machine) (p : Pending) : Prop where
  /-- The machine waits. -/
  phase_eq : m.phase = .awaitingTarget
  /-- The effect that waits is in work. -/
  current_eq : m.current = some p
  /-- The request is what it would be now. -/
  request_eq : m.request = some (p.effect.request (p.effect.selectable r m.table.game))
  /-- The player has to pick the targets. -/
  needsSelection : p.effect.target.needsSelection = true
  /-- There is something to pick. -/
  selectable_ne : (p.effect.selectable r m.table.game).isEmpty = false
  /-- Targets are not picked for the player. -/
  autoSelect_eq : r.config.autoSelect = false
  /-- The effects left are queued as they should be. -/
  honest : ∀ q ∈ p :: m.queue, q.Honest m.source

/-- What waits is what the machine shows. -/
theorem Machine.Waiting.preview_eq {r : Rules} {m : Machine} {p : Pending} (h : m.Waiting r p) :
    m.preview = p :: m.queue := by
  simp only [preview, h.current_eq, h.phase_eq, if_true]

/-- Whether a machine in this phase waits for its host. -/
def Phase.isResting : Phase → Bool
  | .idle | .awaitingTarget | .completed => true
  | _ => false

/-- What a call of a machine comes to follows the direct account: the table is the same, the outcome
says how far the effects got, and the machine is ready to go on from there. -/
def Follows (r : Rules) (source : Option Card) (direct : Except Fault Progress × Table)
    (done : Except EngineError Outcome × Machine) : Prop :=
  done.2.table = direct.2 ∧ done.2.Quiet ∧
  match direct.1 with
  | .ok (.finished results) =>
    done.1 = .ok { phase := .completed, results := results.items, request := none, source } ∧
      done.2.phase = .completed
  | .ok (.waiting results request left) =>
    done.1 = .ok done.2.outcome ∧ (∃ p, done.2.Waiting r p) ∧ done.2.results = results ∧
      done.2.request = some request ∧ done.2.source = source ∧ done.2.preview.map (·.entry) = left
  | .ok (.refused e) => done.1 = .error (.invalidSelection e) ∧ ∃ p, done.2.Waiting r p
  | .ok .unasked => False
  | .error f => done.1 = .error (.fault f) ∧ done.2.phase.isResting = false

namespace Engine

variable {r : Rules} {tell : Tell} (ht : Discreet tell)

include ht

/-- If what comes after an effect follows the direct account, so does the effect with it. -/
theorem dispatch_follows {m : Machine} {p : Pending} {source : Option Card} (hq : m.Quiet)
    (hp : p.Honest m.source) (targets : List Card) {direct : EffectResult → Play Progress}
    {next : Run Outcome}
    (hnext : ∀ result t e, Follows r source (exec (direct result) t)
      (exec next ({ m with phase := .dispatching, table := t, results := m.results.push result,
                           current := none }.noted e))) :
    Follows r source (exec (Direct.carryOut r p.effect targets m.results >>= direct) m.table)
      (exec (dispatch tell r p targets >>= fun _ => next) m) := by
  rw [hp.carryOut_eq, exec_bind, exec_map, exec_dispatch_bind]
  rcases exec (p.carriedOut r targets m.results) m.table with ⟨f | ⟨magnitude, result⟩, t⟩
  · exact ⟨rfl, hq, rfl, rfl⟩
  · dsimp only
    rw [ht.exec_bind (by exact hq)]
    exact hnext result t _

/-- The queue is carried out as the direct account goes through its effects. -/
theorem drain_follows {n : Nat} {source : Option Card} (queue : List Pending) {m : Machine}
    (hq : m.Quiet) (hreq : m.request = none) (hn : m.activation = n) (hsource : m.source = source)
    (hhonest : ∀ p ∈ queue, p.Honest source) :
    Follows r source (exec (Direct.interpret r source (queue.map (·.entry)) [] m.results) m.table)
      (exec (drain tell r n queue) m) := by
  induction queue generalizing m with
  | nil =>
    rw [drain, exec_finish ht hq]
    exact ⟨rfl, hq, by rw [hreq, hsource], rfl⟩
  | cons p rest ih =>
    have hp : p.Honest source := hhonest p (List.mem_cons_self ..)
    have hrest : ∀ q ∈ rest, q.Honest source := fun q hq => hhonest q (List.mem_cons_of_mem _ hq)
    -- Whatever came of the first effect, the loop goes on with the rest.
    have hgo : ∀ {m : Machine}, m.Quiet → m.request = none → m.activation = n →
        m.source = source → Follows r source
          (exec (Direct.interpret r source (rest.map (·.entry)) [] m.results) m.table)
          (exec (goOn tell r n rest) m) := fun {m} hq hreq hn hsource => by
      rw [exec_goOn tell hn]
      exact ih hq hreq hn hsource hrest
    rw [List.map_cons, Pending.entry, Direct.interpret, Direct.collect]
    -- There may be nothing to pick, or targets are picked for the player, asked for or collected.
    by_cases hsel : p.effect.target.needsSelection = true
    · simp only [hsel, if_true, Play.exec_game_bind, bind_assoc]
      by_cases hnone : (p.effect.selectable r m.table.game).isEmpty = true
      · rw [exec_drain_nothing tell hsel hnone]
        simp only [hnone, if_true, pure_bind]
        rw [exec_bind, exec_complete ht (by exact hq)]
        exact hgo (by exact hq) hreq hn hsource
      · have hsome := Bool.eq_false_iff.mpr hnone
        by_cases hauto : r.config.autoSelect = true
        · rw [exec_drain_picked tell hsel hsome hauto]
          simp only [hsome, hauto, if_true, if_false, Bool.false_eq_true, pure_bind]
          refine dispatch_follows ht (by exact hq) (by rwa [hsource]) _ fun result t e => ?_
          exact hgo (by exact hq) hreq hn hsource
        · -- Both stop here: the machine keeps the effect and the rest of the queue.
          have hask := Bool.eq_false_iff.mpr hauto
          rw [exec_drain_asked tell hsel hsome hask, exec_suspend ht (by exact hq)]
          simp only [hsome, hask, if_false, Bool.false_eq_true, pure_bind]
          refine ⟨rfl, hq, rfl, ⟨p, rfl, rfl, rfl, hsel, hsome, hask, ?_⟩, rfl, rfl, hsource, ?_⟩
          · rwa [← hsource] at hhonest
          · rfl
    · rw [exec_drain_collected tell (Bool.eq_false_iff.mpr hsel), hp.source_eq]
      simp only [hsel, if_false, Bool.false_eq_true, bind_assoc, pure_bind]
      rw [exec_bind]
      rcases exec (p.effect.autoTargets r source) m.table with ⟨f | targets, t⟩
      · exact ⟨rfl, hq, rfl, rfl⟩
      · refine dispatch_follows ht (by exact hq) (by rwa [hsource]) targets fun result u e => ?_
        exact hgo (by exact hq) hreq hn hsource

omit ht in
/-- Magnitudes of fixed effects are drawn as they are. -/
theorem honest_of_speculate (source : Option Card) {effects : List Effect} {t u : Table}
    {entries : List (Effect × Int)}
    (h : exec (Direct.speculate r effects) t = (.ok entries, u)) :
    ∀ p ∈ entries.map (Pending.ofEntry source), p.Honest source := by
  induction effects generalizing t entries with
  | nil =>
    cases h
    exact fun _ hp => nomatch hp
  | cons e rest ih =>
    rw [Direct.speculate, exec_bind] at h
    rcases hmag : exec (e.magnitude r {} []) t with ⟨f | n, v⟩ <;> rw [hmag] at h
    · cases h
    · dsimp only at h
      rw [exec_bind] at h
      rcases hrest : exec (Direct.speculate r rest) v with ⟨f | more, w⟩ <;> rw [hrest] at h
      · cases h
      · cases h
        intro p hp
        rw [List.map_cons, List.mem_cons] at hp
        rcases hp with rfl | hp
        -- The entry holds what was drawn, which for a fixed magnitude is that of the effect.
        · refine ⟨rfl, fun hfixed => ?_⟩
          change e.isDynamic = false at hfixed
          rw [Effect.magnitude_of_fixed hfixed] at hmag
          cases hmag
          rfl
        · exact ih hrest p hp

/-- Queueing the effects of all groups and carrying them out does what the direct account does until
it runs out of answers. -/
theorem expand_follows {n : Nat} {source : Option Card} (groups : List Group) {m : Machine}
    (hq : m.Quiet) (hresults : m.results = {}) (hqueue : m.queue = []) (hreq : m.request = none)
    (hn : m.activation = n) (hsource : m.source = source) (hphase : m.phase = .expanding) :
    Follows r source (exec (Direct.activate r groups source []) m.table)
      (exec (expand r source groups >>= fun _ => proceed tell r n) m) := by
  subst hn
  unfold Direct.activate
  rw [Play.exec_game_bind, exec_bind, exec_bind]
  obtain ⟨f, t, queue, hdirect, hdone⟩ | ⟨entries, t, hdirect, hdone⟩ :=
    exec_expand (r := r) source groups hresults
  · rw [hdirect, hdone]
    exact ⟨rfl, hq, rfl, by rw [hphase]; rfl⟩
  · rw [hdirect, hdone]
    dsimp only
    rw [proceed, exec_get_bind, ← hresults]
    simp only [if_true, hqueue, List.nil_append]
    -- The queue holds the drawn entries, and shows them as they were drawn.
    have hentries : (entries.map (Pending.ofEntry source)).map (·.entry) = entries := by
      rw [List.map_map]
      exact List.map_id _
    have hdrain := drain_follows (r := r) ht (m := { m with
      table := t, queue := entries.map (.ofEntry source) }) (entries.map (.ofEntry source))
      hq hreq rfl hsource (honest_of_speculate source hdirect)
    rw [hentries] at hdrain
    exact hdrain

/-- Starting an activation does what the direct account does until it runs out of answers. -/
theorem start_follows {m : Machine} (hq : m.Quiet)
    (hfree : m.isBusy = true → r.config.policy ≠ .reject) (groups : List Group)
    (source : Option Card) :
    Follows r source (exec (Direct.activate r groups source []) m.table)
      (exec (start tell r groups source) m) := by
  rw [exec_start tell hfree (ht _ _ (by exact hq)) rfl]
  exact expand_follows ht groups (by exact hq) rfl rfl rfl rfl rfl rfl

/-- The queue behind an answered request is what the direct account has left. -/
theorem proceed_follows {m : Machine} (hq : m.Quiet) (hreq : m.request = none)
    (hhonest : ∀ p ∈ m.queue, p.Honest m.source) :
    Follows r m.source
      (exec (Direct.interpret r m.source (m.queue.map (·.entry)) [] m.results) m.table)
      (exec (proceed tell r m.activation) m) := by
  rw [exec_proceed, exec_goOn tell rfl]
  exact drain_follows ht m.queue hq hreq rfl rfl hhonest

/-- Answering a request does what the direct account does with the answer. -/
theorem resume_follows {m : Machine} {p : Pending} (hq : m.Quiet) (hw : m.Waiting r p)
    (ids : List String) :
    Follows r m.source
      (exec (Direct.interpret r m.source (m.preview.map (·.entry)) [.pick ids] m.results) m.table)
      (exec (resume tell r ids) m) := by
  rw [hw.preview_eq, List.map_cons, Pending.entry, Direct.interpret, Direct.collect]
  simp only [hw.needsSelection, if_true, bind_assoc, Play.exec_game_bind, hw.selectable_ne,
    hw.autoSelect_eq, if_false, Bool.false_eq_true]
  rcases hids : selected (p.effect.request (p.effect.selectable r m.table.game)) ids
    with e | targets
  · -- A refused selection leaves the request waiting.
    rw [exec_resume_refused tell hw.phase_eq hw.request_eq hids]
    exact ⟨rfl, hq, rfl, p, hw⟩
  · rw [exec_resume tell hw.phase_eq hw.current_eq hw.request_eq hids]
    simp only [pure_bind]
    have hp : p.Honest m.source := hw.honest p (List.mem_cons_self ..)
    refine dispatch_follows ht (by exact hq) (by exact hp) targets fun result t e => ?_
    exact proceed_follows ht (by exact hq) rfl fun q hq => hw.honest q (List.mem_cons_of_mem _ hq)

/-- Passing an effect over does what the direct account does with it. -/
theorem cancel_follows {m : Machine} {p : Pending} (hq : m.Quiet) (hw : m.Waiting r p) :
    Follows r m.source
      (exec (Direct.interpret r m.source (m.preview.map (·.entry)) [.pass] m.results) m.table)
      (exec (cancel tell r) m) := by
  rw [hw.preview_eq, List.map_cons, Pending.entry, Direct.interpret, Direct.collect]
  simp only [hw.needsSelection, if_true, bind_assoc, Play.exec_game_bind, hw.selectable_ne,
    hw.autoSelect_eq, if_false, Bool.false_eq_true, pure_bind]
  -- A result is put down for the effect that is passed over, and the queue goes on behind it.
  rw [exec_cancel tell hw.phase_eq hw.current_eq, exec_bind, exec_complete ht (by exact hq)]
  exact proceed_follows ht (by exact hq) rfl fun q hq => hw.honest q (List.mem_cons_of_mem _ hq)

end Engine

namespace Machine

/-- Gives an answer to the machine. -/
def answer (m : Machine) (r : Rules) : Answer → Except EngineError Outcome × Machine
  | .pick ids => m.run r fun tell => Engine.resume tell r ids
  | .pass => m.run r fun tell => Engine.cancel tell r

/-- Gives answers to the machine after a call of it, one after another and up to the first error. -/
def answerAll (r : Rules) : List Answer → Except EngineError Outcome × Machine →
    Except EngineError Outcome × Machine
  | a :: answers, (.ok _, m) => answerAll r answers (m.answer r a)
  | _, done => done

/-- Starts an activation and answers its requests. -/
def converse (m : Machine) (r : Rules) (groups : List Group) (source : Option Card)
    (answers : List Answer) : Except EngineError Outcome × Machine :=
  answerAll r answers (m.run r fun tell => Engine.start tell r groups source)

end Machine

/-- The calls of an activation come to what the direct account says. A completed activation leaves
the same table and has the same results; one that waits has the same results so far, the same
request and the same effects left, the one that waits first. Where there are more answers than
requests nothing is said. -/
def Agrees (source : Option Card) (direct : Except Fault Progress × Table)
    (done : Except EngineError Outcome × Machine) : Prop :=
  match direct.1 with
  | .ok (.finished results) =>
    done.1 = .ok { phase := .completed, results := results.items, request := none, source } ∧
      done.2.phase = .completed ∧ done.2.table = direct.2
  | .ok (.waiting results request left) =>
    done.1 =
        .ok { phase := .awaitingTarget, results := results.items, request := some request,
              source } ∧
      done.2.phase = .awaitingTarget ∧ done.2.preview = left.map (.ofEntry source) ∧
      done.2.table = direct.2
  | .ok (.refused e) => done.1 = .error (.invalidSelection e) ∧ done.2.table = direct.2
  | .ok .unasked => True
  | .error f => done.1 = .error (.fault f) ∧ done.2.table = direct.2

section Conversation

variable {r : Rules} {source : Option Card}

/-- An answer to a machine that waits does what the direct account does with it. -/
theorem answer_follows {m : Machine} {p : Pending} (hq : m.Quiet) (hw : m.Waiting r p)
    (a : Answer) :
    Follows r m.source
      (exec (Direct.interpret r m.source (m.preview.map (·.entry)) [a] m.results) m.table)
      (m.answer r a) := by
  cases a with
  | pick ids => exact Engine.resume_follows (Engine.discreet_of_quiet hq) hq hw ids
  | pass => exact Engine.cancel_follows (Engine.discreet_of_quiet hq) hq hw

/-- What follows the direct account agrees with it. -/
theorem Follows.agrees {direct : Except Fault Progress × Table}
    {done : Except EngineError Outcome × Machine} (h : Follows r source direct done) :
    Agrees source direct done := by
  obtain ⟨htable, -, h⟩ := h
  unfold Agrees
  split
  · next hd =>
    rw [hd] at h
    exact ⟨h.1, h.2, htable⟩
  · next results request left hd =>
    rw [hd] at h
    obtain ⟨hdone, ⟨p, hw⟩, hresults, hrequest, hsource, hleft⟩ := h
    refine ⟨?_, hw.phase_eq, ?_, htable⟩
    · rw [hdone, Machine.outcome, hw.phase_eq, hresults, hrequest, hsource]
    · rw [← hleft, List.map_map, hw.preview_eq]
      -- The account does not name the source, but every entry of the queue belongs to it.
      refine (List.map_id _).symm.trans (List.map_congr_left fun q hq => ?_)
      rw [← hsource, ← (hw.honest q hq).source_eq]
      rfl
  · next hd =>
    rw [hd] at h
    exact ⟨h.1, htable⟩
  · trivial
  · next hd =>
    rw [hd] at h
    exact ⟨h.1, htable⟩

/-- If a call follows the direct account, the answers given after it agree with the account that is
given them as well. -/
theorem answerAll_agrees (answers : List Answer) {x : Play Progress} {t : Table}
    {done : Except EngineError Outcome × Machine} (h : Follows r source (exec x t) done) :
    Agrees source (exec (x >>= Direct.goOn r source answers) t)
      (Machine.answerAll r answers done) := by
  -- The account so far, `x`, takes in one answer at every step of the induction.
  induction answers generalizing x t done with
  | nil =>
    have hstay : Direct.goOn r source [] = pure := funext fun p => by cases p <;> rfl
    rw [hstay, bind_pure]
    unfold Machine.answerAll
    exact h.agrees
  | cons a answers ih =>
    have hsteps : x >>= Direct.goOn r source (a :: answers) =
        (x >>= Direct.goOn r source [a]) >>= Direct.goOn r source answers := by
      rw [bind_assoc]
      exact bind_congr fun p => Direct.goOn_cons source a answers p
    rcases hx : exec x t with ⟨f | p, u⟩
    · -- A fault ends both, whatever answers are left.
      have hfault : exec (x >>= Direct.goOn r source (a :: answers)) t = exec x t := by
        rw [exec_bind, hx]
      have hstop : Machine.answerAll r (a :: answers) done = done := by
        rw [hx] at h
        obtain ⟨d, m⟩ := done
        obtain ⟨-, -, rfl : d = .error (.fault f), -⟩ := h
        rfl
      rw [hfault, hstop]
      exact h.agrees
    · rw [hx] at h
      obtain ⟨d, m⟩ := done
      obtain ⟨htable : m.table = u, hquiet, h⟩ := h
      cases p with
      | waiting results request left =>
        dsimp only at h
        obtain ⟨rfl, ⟨p, hw⟩, rfl, -, rfl, rfl⟩ := h
        rw [hsteps]
        refine ih ?_
        rw [exec_bind, hx, ← htable]
        exact answer_follows hquiet hw a
      | refused e =>
        obtain ⟨rfl : d = .error (.invalidSelection e), -⟩ := h
        rw [exec_bind, hx]
        exact ⟨rfl, htable⟩
      | finished results =>
        -- There are more answers than requests.
        rw [exec_bind, hx]
        trivial
      | unasked => exact h.elim

/-- An activation that a quiet machine runs, call by call, agrees with the direct account of it that
is given all answers in advance. -/
theorem converse_agrees {m : Machine} (hq : m.Quiet)
    (hfree : m.isBusy = true → r.config.policy ≠ .reject) (groups : List Group)
    (source : Option Card) (answers : List Answer) :
    Agrees source (exec (Direct.activate r groups source answers) m.table)
      (m.converse r groups source answers) := by
  have hstart := answerAll_agrees answers
    (Engine.start_follows (Engine.discreet_of_quiet (r := r) hq) hq hfree groups source)
  -- Giving no answers at first and all of them afterwards comes to the same.
  have hall : Direct.activate r groups source answers =
      Direct.activate r groups source [] >>= Direct.goOn r source answers := by
    simp only [Direct.activate, bind_assoc, ← Direct.interpret_append, List.nil_append]
  rw [hall]
  exact hstart

/-- One request, answered by the only card there is to pick. -/
theorem converse_agrees_of_one_request :
    let copper : Card := { serial := 1, instanceId := "copper#1", cardId := "copper" }
    let m : Machine :=
      { table := { game := { zones := { hand := [copper] } },
                   dice := { twister := { words := #[], used := 0 } } } }
    let groups := [Group.always [{ kind := .known .destroyCard, target := .handCard }, .gold 5]]
    (m.converse {} groups none [.pick ["copper#1"]]).1 =
      .ok { phase := .completed,
            results := [{ kind := .known .destroyCard, success := true, count := 1 },
                        { kind := .known .addGold, success := true, value := 5 }],
            request := none, source := none } := by
  intro copper m groups
  have hquiet : m.Quiet := fun o ho => nomatch ho
  have hagrees := converse_agrees (r := {}) hquiet (fun hbusy => nomatch hbusy) groups none
    [.pick ["copper#1"]]
  have hdirect : (exec (Direct.activate {} groups none [.pick ["copper#1"]]) m.table).1 =
      .ok (.finished { items := [{ kind := .known .destroyCard, success := true, count := 1 },
                                 { kind := .known .addGold, success := true, value := 5 }] }) := rfl
  unfold Agrees at hagrees
  rw [hdirect] at hagrees
  exact hagrees.1

end Conversation

end Treasury
