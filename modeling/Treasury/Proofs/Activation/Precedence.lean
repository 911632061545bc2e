import Treasury.Proofs.Activation.Synchrony
import Treasury.Proofs.Execution.Headcount

/-!
# What comes first

The groups of an activation are queued together before any effect is carried out, and from then on
all of them share the queue, the results and the dice. Still, groups that are behind others do not
show in what is done before their turn comes, as long as no dice are thrown when they are queued.

* `Group.RollsNothing`: no dice are thrown for a group when it is queued.
* `Machine.Prolonged` compares two runs, of which the second has more in its queue. They stay side
  by side until the first of them has nothing left; there the second goes on with what it has more.
* `drain_prolonged` is the induction over the queue, and `answer_prolonged` says that answers keep
  the two side by side.
* `earlier_groups_first` is the statement for groups behind other groups.
-/

namespace Treasury

/-! ## Groups without rolls -/

/-- No effect of a group, whichever of them apply, has a magnitude that is rolled. -/
def Group.RollsNothing (grp : Group) : Prop :=
  ∀ e ∈ grp.effects ++ grp.elseEffects, ∀ s, e.dynamic = some s →
    s.kind ≠ .known .randomRange ∧ s.kind ≠ .known .randomDice

/-- Only two kinds of sources throw the dice. -/
theorem ValueSource.keeps_table_resolve {s : ValueSource} (hrange : s.kind ≠ .known .randomRange)
    (hdice : s.kind ≠ .known .randomDice) (r : Rules) (results : ResultStack)
    (targets : List Card) : Keeps Eq (s.resolve r results targets) := by
  refine .bind (.bind (.of_fixed fun _ => rfl) fun g => ?_) fun base =>
    .of_fixed fun t => by rw [Play.exec_calculate]
  split
  case h_6 => exact .of_fixed fun t => by rw [Play.exec_calculate]
  case h_12 hkind => exact absurd hkind hrange
  case h_13 hkind => exact absurd hkind hdice
  all_goals exact .pure _

/-- Queueing effects that are not rolled leaves the dice as well. -/
theorem Direct.keeps_table_speculate {r : Rules} {effects : List Effect}
    (h : ∀ e ∈ effects, ∀ s, e.dynamic = some s →
      s.kind ≠ .known .randomRange ∧ s.kind ≠ .known .randomDice) :
    Keeps Eq (Direct.speculate r effects) := by
  induction effects with
  | nil => exact .pure _
  | cons e rest ih =>
    rw [List.forall_mem_cons] at h
    refine .bind ?_ fun value => .bind (ih h.2) fun more => .pure _
    unfold Effect.magnitude
    split
    · next s hs => exact .ite (.pure _) (s.keeps_table_resolve (h.1 s hs).1 (h.1 s hs).2 r _ _)
    · exact .pure _

/-- Every effect is queued once, in order. -/
theorem Direct.effects_of_speculate {r : Rules} {effects : List Effect} {t u : Table}
    {entries : List (Effect × Int)}
    (h : exec (Direct.speculate r effects) t = (.ok entries, u)) : entries.map (·.1) = effects := by
  induction effects generalizing t entries with
  | nil =>
    cases h
    rfl
  | cons e rest ih =>
    rw [Direct.speculate, exec_bind] at h
    -- The first magnitude that cannot be drawn would have ended it.
    rcases hmag : exec (e.magnitude r {} []) t with ⟨f | n, v⟩ <;> rw [hmag] at h
    · cases h
    · dsimp only at h
      rw [exec_bind] at h
      rcases hrest : exec (Direct.speculate r rest) v with ⟨f | more, w⟩ <;> rw [hrest] at h
      · cases h
      · cases h
        rw [List.map_cons, ih hrest]

/-- An effect that applies is one of its group. -/
theorem Group.chosen_subset (grp : Group) (r : Rules) (g : GameState) (results : ResultStack) :
    grp.chosen r g results ⊆ grp.effects ++ grp.elseEffects := by
  unfold chosen
  split
  · exact List.subset_append_left _ _
  · exact List.subset_append_right _ _

/-- Queueing groups without rolls leaves the dice. -/
theorem Direct.keeps_table_speculate_chosen {r : Rules} {groups : List Group}
    (h : ∀ grp ∈ groups, grp.RollsNothing) (g : GameState) :
    Keeps Eq (Direct.speculate r (Direct.chosen r g groups)) := by
  refine Direct.keeps_table_speculate fun e he => ?_
  obtain ⟨grp, hgrp, he⟩ := List.mem_flatMap.mp he
  exact h grp hgrp e (grp.chosen_subset r g {} he)

/-- If groups without rolls are behind others, the entries for the others are queued as if there
were no more, and those behind are of the effects that apply at the start. -/
theorem Direct.exists_of_speculate {r : Rules} {earlier later : List Group} {g : GameState}
    (hlater : ∀ grp ∈ later, grp.RollsNothing) {t u : Table} {all : List (Effect × Int)}
    (h : exec (Direct.speculate r (Direct.chosen r g (earlier ++ later))) t = (.ok all, u)) :
    ∃ entries more, exec (Direct.speculate r (Direct.chosen r g earlier)) t = (.ok entries, u) ∧
      more.map (·.1) = Direct.chosen r g later ∧ all = entries ++ more := by
  rw [Direct.chosen, List.flatMap_append, Direct.speculate_append, exec_bind] at h
  rw [Direct.chosen]
  rcases hfirst : exec (Direct.speculate r (earlier.flatMap (·.chosen r g {}))) t
    with ⟨f | entries, v⟩ <;> rw [hfirst] at h
  · cases h
  · dsimp only at h
    rw [exec_bind] at h
    -- The later groups throw no dice, so the table is as the earlier ones left it.
    have hkept := Direct.keeps_table_speculate_chosen (r := r) hlater g v
    rw [Direct.chosen] at hkept
    rcases hrest : exec (Direct.speculate r (later.flatMap (·.chosen r g {}))) v
      with ⟨f | more, w⟩ <;> rw [hrest] at h hkept
    · cases h
    · cases h
      obtain rfl : v = u := hkept
      exact ⟨entries, more, hfirst, Direct.effects_of_speculate hrest, rfl⟩

/-- The result of an effect that was carried out is of its kind. -/
theorem Pending.kind_of_carriedOut {r : Rules} {p : Pending} {targets : List Card}
    {results : ResultStack} {t u : Table} {magnitude : Int} {result : EffectResult}
    (h : exec (p.carriedOut r targets results) t = (.ok (magnitude, result), u)) :
    result.kind = p.effect.kind := by
  obtain ⟨dice, rfl, -⟩ := exists_dice_of_carriedOut h
  exact Assignment.kind_of_result _ r { t with dice }

/-! ## Two runs side by side -/

/-- The kinds of the results of a machine. -/
def Machine.kinds (m : Machine) : List (Word EffectKind) := m.results.items.map (·.kind)

/-- What an effect leaves behind is a result of its kind. -/
theorem Machine.kinds_of_push {m u : Machine} {p : Pending} {result : EffectResult}
    (hresults : u.results = m.results.push result) (hkind : result.kind = p.effect.kind)
    (rest : List Pending) :
    m.kinds ++ (p :: rest).map (·.effect.kind) = u.kinds ++ rest.map (·.effect.kind) := by
  simp [kinds, hresults, hkind]

/-- What two runs come to, of which the second has more in its queue. Both wait with the same
request, or the first has nothing left to do where the second goes on with what it has more. By then
the results are of the given kinds. Where the first fails nothing is said. -/
inductive Machine.Prolonged (r : Rules) (more : List Pending) (kinds : List (Word EffectKind))
    (done done' : Except EngineError Outcome × Machine) : Prop
  /-- The first run fails. -/
  | failed (e : EngineError) (h : done.1 = .error e)
  /-- Both wait. -/
  | waiting (u : Machine) (p : Pending) (q : TargetRequest) (hquiet : u.Quiet)
    (hphase : u.phase = .awaitingTarget) (hcurrent : u.current = some p)
    (hrequest : u.request = some q)
    (hkinds : kinds = u.kinds ++ (p :: u.queue).map (·.effect.kind))
    (hdone : done = (.ok u.outcome, u))
    (hdone' : done' = (.ok u.outcome, { u with queue := u.queue ++ more }))
  /-- The first has nothing left to do. -/
  | ended (u : Machine) (hquiet : u.Quiet) (hrequest : u.request = none) (hkinds : kinds = u.kinds)
    (hdone : done = exec (Engine.drain (Engine.notify r 1) r u.activation [])
      { u with queue := [] })
    (hdone' : done' = exec (Engine.drain (Engine.notify r 1) r u.activation more)
      { u with queue := more })

namespace Engine

open Machine (Prolonged)

variable {r : Rules} {more : List Pending} {kinds : List (Word EffectKind)} {m : Machine}

/-- What both carry out is the same to both. -/
theorem dispatch_prolonged (hq : m.Quiet) (p : Pending) (targets : List Card)
    {next next' : Run Outcome}
    (hnext : ∀ t result e, result.kind = p.effect.kind → Prolonged r more kinds
      (exec next ({ m with phase := .dispatching, table := t, results := m.results.push result,
                           current := none }.noted e))
      (exec next' ({ m with phase := .dispatching, table := t, results := m.results.push result,
                            current := none, queue := m.queue ++ more }.noted e))) :
    Prolonged r more kinds (exec (dispatch (notify r 1) r p targets >>= fun _ => next) m)
      (exec (dispatch (notify r 1) r p targets >>= fun _ => next')
        { m with queue := m.queue ++ more }) := by
  have ht := discreet_notify (r := r) 0
  rw [exec_dispatch_bind, exec_dispatch_bind]
  dsimp only
  rcases hdone : exec (p.carriedOut r targets m.results) m.table with ⟨f | ⟨magnitude, result⟩, t⟩
  · exact .failed (.fault f) rfl
  · dsimp only
    rw [ht.exec_bind (by exact hq), ht.exec_bind (by exact hq)]
    exact hnext t result _ (Pending.kind_of_carriedOut hdone)

/-- A queue is worked off in the same way whatever is behind it. -/
theorem drain_prolonged {n : Nat} (queue : List Pending) (hq : m.Quiet) (hreq : m.request = none)
    (hn : m.activation = n) :
    Prolonged r more (m.kinds ++ queue.map (·.effect.kind))
      (exec (drain (notify r 1) r n queue) { m with queue })
      (exec (drain (notify r 1) r n (queue ++ more)) { m with queue := queue ++ more }) := by
  subst hn
  have ht := discreet_notify (r := r) 0
  induction queue generalizing m with
  | nil => exact .ended m hq hreq (List.append_nil _) rfl rfl
  | cons p rest ih =>
    -- Whatever came of the first effect, both loops go on with the rest.
    have hgo : ∀ (t : Table) (phase : Phase) (result : EffectResult) (e : Event),
        result.kind = p.effect.kind →
        Prolonged r more (m.kinds ++ (p :: rest).map (·.effect.kind))
          (exec (goOn (notify r 1) r m.activation rest)
            ({ m with table := t, phase, results := m.results.push result, current := none,
                      queue := rest }.noted e))
          (exec (goOn (notify r 1) r m.activation (rest ++ more))
            ({ m with table := t, phase, results := m.results.push result, current := none,
                      queue := rest ++ more }.noted e)) := by
      intro t phase result e hkind
      rw [exec_goOn _ (by exact rfl), exec_goOn _ (by exact rfl)]
      rw [Machine.kinds_of_push (u := { m with
        table := t, phase, results := m.results.push result, current := none }.noted e) rfl hkind]
      exact ih (by exact hq) hreq
    rw [List.cons_append]
    by_cases hsel : p.effect.target.needsSelection = true
    · by_cases hnone : (p.effect.selectable r m.table.game).isEmpty = true
      · rw [exec_drain_nothing _ hsel (by exact hnone), exec_drain_nothing _ hsel (by exact hnone),
          exec_bind, exec_bind, exec_complete ht (by exact hq), exec_complete ht (by exact hq)]
        exact hgo _ _ _ _ rfl
      · have hsome := Bool.eq_false_iff.mpr hnone
        by_cases hauto : r.config.autoSelect = true
        · rw [exec_drain_picked _ hsel (by exact hsome) hauto,
            exec_drain_picked _ hsel (by exact hsome) hauto]
          exact dispatch_prolonged (m := { m with queue := rest, current := some p }) hq p _
            fun t result e hkind => hgo t _ result e hkind
        · have hask := Bool.eq_false_iff.mpr hauto
          rw [exec_drain_asked _ hsel (by exact hsome) hask,
            exec_drain_asked _ hsel (by exact hsome) hask,
            exec_suspend ht (by exact hq), exec_suspend ht (by exact hq)]
          let q := p.effect.request (p.effect.selectable r m.table.game)
          exact .waiting ({ m with
              queue := rest, current := some p, phase := .awaitingTarget,
              request := some q }.noted (.targetRequired q))
            p q hq rfl rfl rfl rfl rfl rfl
    · have hauto := Bool.eq_false_iff.mpr hsel
      rw [exec_drain_collected _ hauto, exec_drain_collected _ hauto]
      dsimp only
      rcases exec (p.effect.autoTargets r p.source) m.table with ⟨f | targets, t⟩
      · exact .failed (.fault f) rfl
      · exact dispatch_prolonged (m := { m with
          queue := rest, current := some p, phase := .autoTargeting, table := t }) hq p targets
          fun u result e hkind => hgo u _ result e hkind

/-- Both take the same answer, and in both the effect that waited is done with. -/
theorem answer_prolonged {u : Machine} {p : Pending} {q : TargetRequest} (hquiet : u.Quiet)
    (hphase : u.phase = .awaitingTarget) (hcurrent : u.current = some p)
    (hrequest : u.request = some q) (a : Answer) :
    Prolonged r more (u.kinds ++ (p :: u.queue).map (·.effect.kind)) (u.answer r a)
      ({ u with queue := u.queue ++ more }.answer r a) := by
  have ht := discreet_notify (r := r) 0
  -- Behind the effect that waited, both go on with the rest of the queue.
  have hgo : ∀ (t : Table) (phase : Phase) (result : EffectResult) (e : Event),
      result.kind = p.effect.kind →
      Prolonged r more (u.kinds ++ (p :: u.queue).map (·.effect.kind))
        (exec (proceed (notify r 1) r u.activation)
          ({ u with request := none, table := t, phase, results := u.results.push result,
                    current := none }.noted e))
        (exec (proceed (notify r 1) r u.activation)
          ({ u with request := none, table := t, phase, results := u.results.push result,
                    current := none, queue := u.queue ++ more }.noted e)) := by
    intro t phase result e hkind
    rw [exec_proceed, exec_proceed, exec_goOn _ (by exact rfl), exec_goOn _ (by exact rfl)]
    rw [Machine.kinds_of_push (u := { u with
      request := none, table := t, phase, results := u.results.push result,
      current := none }.noted e) rfl hkind]
    exact drain_prolonged u.queue (by exact hquiet) rfl rfl
  cases a with
  | pick ids =>
    change Prolonged r more _ (exec (resume (notify r u.depth) r ids) u)
      (exec (resume (notify r u.depth) r ids) { u with queue := u.queue ++ more })
    rw [hquiet.depth_eq]
    cases hids : selected q ids with
    | error e =>
      rw [exec_resume_refused _ hphase hrequest hids]
      exact .failed (.invalidSelection e) rfl
    | ok targets =>
      rw [exec_resume _ hphase hcurrent hrequest hids,
        exec_resume _ (by exact hphase) (by exact hcurrent) (by exact hrequest) hids]
      exact dispatch_prolonged (m := { u with request := none }) hquiet p targets
        fun t result e hkind => hgo t _ result e hkind
  | pass =>
    change Prolonged r more _ (exec (cancel (notify r u.depth) r) u)
      (exec (cancel (notify r u.depth) r) { u with queue := u.queue ++ more })
    rw [hquiet.depth_eq, exec_cancel _ hphase hcurrent,
      exec_cancel _ (by exact hphase) (by exact hcurrent), exec_bind, exec_bind,
      exec_complete ht (by exact hquiet), exec_complete ht (by exact hquiet)]
    exact hgo _ _ _ _ rfl

/-- An activation with more groups behind is prolonged by the effects of these that apply when it
starts. -/
theorem start_prolonged {r : Rules} {m : Machine} (hq : m.Quiet) {earlier later : List Group}
    (hlater : ∀ grp ∈ later, grp.RollsNothing) (source : Option Card)
    (hok : ∃ first, (m.call r (.start (earlier ++ later) source)).1 = .ok first) :
    ∃ more : List Pending,
      more.map (·.effect) = later.flatMap (·.chosen r m.table.game {}) ∧
      Prolonged r more ((earlier.flatMap (·.chosen r m.table.game {})).map (·.kind))
        (m.call r (.start earlier source)) (m.call r (.start (earlier ++ later) source)) := by
  change ∃ first, (exec (start (notify r m.depth) r _ source) m).1 = .ok first at hok
  change ∃ more : List Pending, _ ∧ Prolonged r more _
    (exec (start (notify r m.depth) r earlier source) m)
    (exec (start (notify r m.depth) r (earlier ++ later) source) m)
  rw [hq.depth_eq] at hok ⊢
  have ht := discreet_notify (r := r) 0
  obtain ⟨first, hok⟩ := hok
  -- A call that is refused has no outcome.
  have hfree : m.isBusy = true → r.config.policy ≠ .reject := by
    intro hbusy hreject
    rw [exec_start_refused _ hbusy hreject] at hok
    cases hok
  rw [exec_start _ hfree (ht _ _ (by exact hq)) rfl, exec_bind] at hok ⊢
  rw [exec_start _ hfree (ht _ _ (by exact hq)) rfl, exec_bind]
  generalize hm : { ({ m with
    activation := m.activation + 1, queue := [], results := {}, current := none, request := none,
    source } : Machine).noted (.started source) with phase := .expanding } = began at hok ⊢
  have hgame : began.table.game = m.table.game := by rw [← hm]; rfl
  have hresults : began.results = {} := by rw [← hm]; rfl
  have hqueue : began.queue = [] := by rw [← hm]; rfl
  have hquiet : began.Quiet := by rw [← hm]; exact hq
  have hrequest : began.request = none := by rw [← hm]; rfl
  have hact : began.activation = m.activation + 1 := by rw [← hm]; rfl
  obtain ⟨f, t, queue, -, hexpand⟩ | ⟨all, t, hdrawn, hexpand⟩ :=
    exec_expand (r := r) source (earlier ++ later) hresults
  · rw [hexpand] at hok
    cases hok
  · obtain ⟨entries, more, hearlier, heffects, rfl⟩ := Direct.exists_of_speculate hlater hdrawn
    obtain ⟨f, u, queue, hdrawn', -⟩ | ⟨entries', u, hdrawn', hexpand'⟩ :=
      exec_expand (r := r) source earlier hresults
    · cases hearlier.symm.trans hdrawn'
    · cases hearlier.symm.trans hdrawn'
      refine ⟨more.map (.ofEntry source), ?_, ?_⟩
      · rw [← hgame, List.map_map]
        exact heffects
      · rw [hexpand, hexpand']
        dsimp only
        rw [exec_proceed, exec_proceed, exec_goOn _ (by exact hact), exec_goOn _ (by exact hact)]
        have hdrain : Prolonged r (more.map (.ofEntry source)) _ _ _ := drain_prolonged
          (m := { began with table := t }) (entries.map (.ofEntry source)) hquiet hrequest hact
        have hkinds : (earlier.flatMap (·.chosen r m.table.game {})).map (·.kind) =
            ({ began with table := t } : Machine).kinds ++
              (entries.map (Pending.ofEntry source)).map (·.effect.kind) := by
          have hchosen := Direct.effects_of_speculate hearlier
          rw [Direct.chosen, hgame] at hchosen
          simp [← hchosen, Machine.kinds, hresults, Pending.ofEntry]
        rw [hkinds]
        simpa [hqueue] using hdrain

/-- Results are kept until the activation is completed. -/
theorem results_prefix_of_dialogue {tell : Tell} (ht : Discreet tell) {n : Nat}
    {queue : List Pending} (hq : m.Quiet) (hreq : m.request = none) (hn : m.activation = n)
    {d : List (TargetRequest × Answer)} {o : Outcome} {last : Machine}
    (h : Machine.Dialogue r d (exec (drain tell r n queue) m) o last) :
    m.results.items <+: o.results := by
  -- The same is done where all answers are given at once, and there it is known.
  have hsettles := drain_settles (u := { m with observers := _ }) (k := d.length) queue ht hq
    ⟨_, _, _, rfl⟩ (Observer.prompts_orders (d.map (·.2))) le_rfl hreq hn h
  exact hsettles.kept

end Engine

namespace Machine

variable {r : Rules} {more : List Pending} {kinds : List (Word EffectKind)}

/-- A dialogue with the first of two runs is the beginning of the one with the second, as far as the
same answers are given. Where it is over, the second run goes on with what it has more, from where
the first one had nothing left. -/
theorem Dialogue.prolonged {d d' : List (TargetRequest × Answer)}
    {done done' : Except EngineError Outcome × Machine} {o o' : Outcome} {last last' : Machine}
    (h : Dialogue r d done o last) (hlong : Prolonged r more kinds done done')
    (h' : Dialogue r d' done' o' last') (hanswers : d.map (·.2) <+: d'.map (·.2)) :
    d <+: d' ∧ o.results <+: o'.results ∧ o.results.map (·.kind) = kinds ∧
      ∃ u : Machine, u.queue = more ∧ u.table = last.table ∧ u.results.items = o.results ∧
        answerAll r (d.map (·.2)) done =
          exec (Engine.drain (Engine.notify r 1) r u.activation []) { u with queue := [] } ∧
        answerAll r (d.map (·.2)) done' =
          exec (Engine.drain (Engine.notify r 1) r u.activation u.queue) u := by
  have ht := Engine.discreet_notify (r := r) 0
  induction h generalizing d' done' kinds with
  | @ended o m hover =>
    cases hlong with
    | failed e herror => cases herror
    | waiting u p q hquiet hphase hcurrent hrequest hkinds hdone hdone' =>
      cases hdone
      exact absurd hphase hover
    | ended u hquiet hrequest hkinds hdone hdone' =>
      have hfinished := hdone
      rw [Engine.drain, Engine.exec_finish ht (by exact hquiet)] at hfinished
      cases hfinished
      rw [hdone'] at h'
      refine ⟨List.nil_prefix, ?_, hkinds.symm, { u with queue := more }, rfl, rfl, rfl, hdone, ?_⟩
      · exact Engine.results_prefix_of_dialogue (m := { u with queue := more }) ht hquiet hrequest
          rfl h'
      · rw [hdone']
        cases d' <;> rfl
  | @asked o last m m' q a d hphase hrequest hrest ih =>
    cases hlong with
    | failed e herror => cases herror
    | ended u hquiet _ _ hdone hdone' =>
      -- What is completed asks for nothing.
      rw [Engine.drain, Engine.exec_finish ht (by exact hquiet)] at hdone
      cases hdone
      cases hphase
    | waiting u p _ hquiet hphase' hcurrent hrequest' hkinds hdone hdone' =>
      cases hdone
      rw [hdone'] at h'
      cases h' with
      | ended hover => exact absurd hphase hover
      | @asked _ _ _ _ q' a' d' _ hasked hrest' =>
        obtain rfl : q' = q := Option.some.inj (hasked.symm.trans hrequest)
        obtain ⟨rfl, hmore⟩ := List.cons_prefix_cons.mp hanswers
        have hnext : Prolonged r more _ _ _ :=
          Engine.answer_prolonged hquiet hphase' hcurrent hrequest' a
        rw [← hkinds] at hnext
        obtain ⟨hfirst, hend⟩ := ih hnext hrest' hmore
        rw [hdone']
        exact ⟨List.cons_prefix_cons.mpr ⟨rfl, hfirst⟩, hend⟩

end Machine

/-- Where groups without rolls are behind other groups, and the requests that come up are given the
answers that they are given without these, the effects of the others come first and do the same:
they have the same requests and the same results, one for each of them in order. At the moment when
the last of them has been carried out, game and dice are as the others alone leave them in the end.
All that is left to do there are the effects of the groups behind that apply in the game as it was
at the start. -/
theorem earlier_groups_first {r : Rules} {m : Machine} (hq : m.Quiet) {earlier later : List Group}
    (hlater : ∀ grp ∈ later, grp.RollsNothing) {source : Option Card}
    {d d' : List (TargetRequest × Answer)} {o o' : Outcome} {last last' : Machine}
    (h : Machine.Dialogue r d (m.call r (.start earlier source)) o last)
    (h' : Machine.Dialogue r d' (m.call r (.start (earlier ++ later) source)) o' last')
    (hanswers : d.map (·.2) <+: d'.map (·.2)) :
    d <+: d' ∧ o.results <+: o'.results ∧
      o.results.map (·.kind) = (earlier.flatMap (·.chosen r m.table.game {})).map (·.kind) ∧
      ∃ u : Machine, u.queue.map (·.effect) = later.flatMap (·.chosen r m.table.game {}) ∧
        u.table = last.table ∧ u.results.items = o.results ∧
        Machine.answerAll r (d.map (·.2)) (m.call r (.start earlier source)) =
          exec (Engine.drain (Engine.notify r 1) r u.activation []) { u with queue := [] } ∧
        Machine.answerAll r (d.map (·.2)) (m.call r (.start (earlier ++ later) source)) =
          exec (Engine.drain (Engine.notify r 1) r u.activation u.queue) u := by
  obtain ⟨more, hmore, hlong⟩ := Engine.start_prolonged hq hlater source h'.isOk
  obtain ⟨hfirst, hresults, hkinds, u, hqueue, hrest⟩ := h.prolonged hlong h' hanswers
  exact ⟨hfirst, hresults, hkinds, u, hqueue ▸ hmore, hrest⟩

/-- Gold is gained and a card destroyed before a group that looks at the gold. It finds the gold of
before. -/
theorem earlier_groups_first_of_gold :
    let copper : Card := { serial := 1, instanceId := "copper#1", cardId := "copper" }
    let m : Machine :=
      { table := { game := { zones := { hand := [copper] } },
                   dice := { twister := { words := #[], used := 0 } } } }
    let earlier := [Group.always [.gold 5, { kind := .known .destroyCard, target := .handCard }]]
    let later := [Group.when [{ kind := .known .goldAbove, value := 3 }] [.gold 7] [.gold 1]]
    (∀ grp ∈ later, grp.RollsNothing) ∧
      ∃ d d' o o' last last', Machine.Dialogue {} d (m.call {} (.start earlier none)) o last ∧
        Machine.Dialogue {} d' (m.call {} (.start (earlier ++ later) none)) o' last' ∧
        d.map (·.2) = [.pick ["copper#1"]] ∧ d <+: d' ∧ o.results <+: o'.results ∧
        ∃ u : Machine, u.queue.map (·.effect) = [.gold 1] ∧ u.table = last.table := by
  intro copper m earlier later
  have hquiet : m.Quiet := fun o ho => nomatch ho
  have hlater : ∀ grp ∈ later, grp.RollsNothing := by
    intro grp hgrp e he s hs
    obtain rfl := List.mem_singleton.mp hgrp
    have hnone : e.dynamic = none := by
      rcases List.mem_pair.mp he with rfl | rfl
      · rfl
      · rfl
    cases hnone.symm.trans hs
  have hstart := fun groups => Engine.start_follows (r := {})
    (Engine.discreet_of_quiet (r := {}) hquiet) hquiet (fun h => nomatch h) groups none
  have hfirst : (exec (Direct.activate {} earlier none [] >>=
      Direct.goOn {} none [.pick ["copper#1"]]) m.table).1 = .ok (.finished
        { items := [{ kind := .known .addGold, success := true, value := 5 },
                    { kind := .known .destroyCard, success := true, count := 1 }] }) := by
    dsimp only [m, copper, earlier]
    rfl
  have hboth : (exec (Direct.activate {} (earlier ++ later) none [] >>=
      Direct.goOn {} none [.pick ["copper#1"]]) m.table).1 = .ok (.finished
        { items := [{ kind := .known .addGold, success := true, value := 5 },
                    { kind := .known .destroyCard, success := true, count := 1 },
                    { kind := .known .addGold, success := true, value := 1 }] }) := by
    dsimp only [m, copper, earlier, later]
    rfl
  obtain ⟨d, last, hanswers, hdialogue⟩ := dialogue_of_finished _ (hstart earlier) hfirst
  obtain ⟨d', last', hanswers', hdialogue'⟩ :=
    dialogue_of_finished _ (hstart (earlier ++ later)) hboth
  obtain ⟨hfirst, hresults, -, u, hqueue, htable, -⟩ :=
    earlier_groups_first hquiet hlater hdialogue hdialogue'
      (hanswers.trans hanswers'.symm ▸ List.prefix_rfl)
  exact ⟨hlater, d, d', _, _, last, last', hdialogue, hdialogue', hanswers, hfirst, hresults, u,
    hqueue, htable⟩

end Treasury
