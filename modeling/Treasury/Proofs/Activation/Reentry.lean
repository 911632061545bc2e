import Treasury.Proofs.Activation.Logging

/-!
# Calls inside calls

A standing order calls the machine from inside a notification, and the call that told it goes on
afterwards. All that a call logs, with everything that is done inside it, is one history after all.

* `Logbook.Goes`: what is logged on the way from one logbook to another is a path between their
  machines.
* `Logbook.Heeds` is what a notification may do to a machine: it leads along a path, and an
  activation of which no effect is in work is left alone or overtaken by another one.
* `Logged.drain_leads`: as long as notifications heed that, the frame that works off the queue can
  tell by the number of the activation whether it is still its turn.
* `Logged.start_heeds`, `Logged.resume_heeds`, `Logged.cancel_heeds` say that calls heed it if their
  notifications do, and `Logged.notify_heedful` closes the circle.
* `Machine.path_deedsOf`: what a call of a host does is a history, whatever observers do meanwhile.
-/

namespace Treasury

/-- If the activation is still the same, its effect in work is done, and the queue is as it was. -/
def Machine.Freed (m m' : Machine) : Prop :=
  m'.activation = m.activation → m'.queue = m.queue ∧ m'.current = none ∧ m'.request = none

namespace Logbook

/-- What is logged on the way from one logbook to another is a path between their machines. Either
of them may have an activation that has not queued its effects yet. -/
def Goes (r : Rules) (opening : Option (List Group)) (l : Logbook) (opening' : Option (List Group))
    (l' : Logbook) : Prop :=
  ∃ h, l'.deeds = l.deeds ++ h ∧ Scene.Path r ⟨l.machine, opening⟩ h ⟨l'.machine, opening'⟩

/-- One logbook comes of another along a path, and no activation is left to queue its effects. -/
def Leads (r : Rules) (l l' : Logbook) : Prop := l.Goes r none none l'

/-- The activation is left alone, whether or not it has queued its effects. -/
def LeavesAlone (r : Rules) (l l' : Logbook) : Prop :=
  (l'.machine.activation = l.machine.activation ∧ l'.machine.queue = l.machine.queue ∧
      l'.machine.current = none ∧ l'.machine.request = none) ∧
    l'.deeds = l.deeds ∧ ∀ opening, Scene.Path r ⟨l.machine, opening⟩ [] ⟨l'.machine, opening⟩

/-- Another activation takes over, even if the one before has not queued its effects. -/
def Overtakes (r : Rules) (l l' : Logbook) : Prop :=
  l.machine.activation < l'.machine.activation ∧ ∀ opening, l.Goes r opening none l'

/-- The second logbook comes of the first along a path, and an activation of which no effect is in
work is left alone or overtaken. -/
structure Heeds (r : Rules) (l l' : Logbook) : Prop where
  /-- The machine goes along a path. -/
  leads : Leads r l l'
  /-- What no effect is in work of is left alone or overtaken. -/
  apart : l.machine.current = none → l.machine.request = none →
    LeavesAlone r l l' ∨ Overtakes r l l'

variable {r : Rules} {l l' l'' : Logbook} {m m' : Machine} {k : List Deed}
  {opening opening' opening'' : Option (List Group)}

namespace Goes

theorem refl : l.Goes r opening opening l := ⟨[], (List.append_nil _).symm, .refl _⟩

theorem trans (h : l.Goes r opening opening' l') (k : l'.Goes r opening' opening'' l'') :
    l.Goes r opening opening'' l'' := by
  obtain ⟨h, hdeeds, hpath⟩ := h
  obtain ⟨k, kdeeds, kpath⟩ := k
  exact ⟨h ++ k, by rw [kdeeds, hdeeds, List.append_assoc], hpath.trans kpath⟩

/-- Something that is no deed is not logged. -/
theorem of_silent (h : Scene.Step r ⟨m, opening⟩ none ⟨m', opening'⟩) :
    Goes r opening ⟨m, k⟩ opening' ⟨m', k⟩ :=
  ⟨[], (List.append_nil _).symm, .of_step h⟩

/-- A deed is logged. -/
theorem of_deed {d : Deed} (h : Scene.Step r ⟨m, opening⟩ (some d) ⟨m', opening'⟩) :
    Goes r opening ⟨m, k⟩ opening' ⟨m', k ++ [d]⟩ :=
  ⟨[d], rfl, .of_step h⟩

/-- Where nothing is logged, no deed is on the path. -/
theorem of_path (h : Scene.Path r ⟨m, opening⟩ [] ⟨m', opening'⟩) :
    Goes r opening ⟨m, k⟩ opening' ⟨m', k⟩ :=
  ⟨[], (List.append_nil _).symm, h⟩

end Goes

instance : IsPreorder Logbook (Leads r) where
  refl _ := .refl
  trans _ _ _ h k := h.trans k

/-- No step takes an activation back. -/
theorem activation_le_of_path {s s' : Scene} {h : List Deed} (hpath : Scene.Path r s h s') :
    s.machine.activation ≤ s'.machine.activation := by
  induction hpath with
  | refl => exact Nat.le_refl _
  | snoc _ hstep ih =>
    refine Nat.le_trans ih ?_
    cases hstep
    case began => exact Nat.le_succ _
    all_goals exact Nat.le_refl _

theorem Goes.activation_le (h : l.Goes r opening opening' l') :
    l.machine.activation ≤ l'.machine.activation := by
  obtain ⟨h, -, hpath⟩ := h
  exact activation_le_of_path hpath

/-- What changes beside the activation leaves it alone. -/
theorem leavesAlone_of_aside (hcurrent : m.current = none) (hrequest : m.request = none)
    (phase : Phase) (observers : List Observer) (record : List Event) (reports : List Report) :
    LeavesAlone r ⟨m, k⟩ ⟨{ m with phase, observers, record, reports }, k⟩ :=
  ⟨⟨rfl, rfl, hcurrent, hrequest⟩, rfl,
    fun opening => Journey.of_step (Scene.Step.aside m opening _ _ _ _)⟩

theorem heeds_of_aside (m : Machine) (k : List Deed) (phase : Phase) (observers : List Observer)
    (record : List Event) (reports : List Report) :
    Heeds r ⟨m, k⟩ ⟨{ m with phase, observers, record, reports }, k⟩ where
  leads := .of_silent (.aside m none _ _ _ _)
  apart hcurrent hrequest := .inl (leavesAlone_of_aside hcurrent hrequest _ _ _ _)

instance : IsPreorder Logbook (Heeds r) where
  refl l := heeds_of_aside l.machine l.deeds l.machine.phase l.machine.observers l.machine.record
    l.machine.reports
  trans l l' l'' := by
    intro h k
    refine ⟨IsTrans.trans _ _ _ h.leads k.leads, fun hcurrent hrequest => ?_⟩
    rcases h.apart hcurrent hrequest with
      ⟨⟨hact, hqueue, hcurrent', hrequest'⟩, hdeeds, hpath⟩ | ⟨hlt, hgoes⟩
    · rcases k.apart hcurrent' hrequest' with
        ⟨⟨hact', hqueue', hcurrent'', hrequest''⟩, hdeeds', hpath'⟩ | ⟨hlt, hgoes'⟩
      · exact .inl ⟨⟨hact'.trans hact, hqueue'.trans hqueue, hcurrent'', hrequest''⟩,
          hdeeds'.trans hdeeds, fun opening => (hpath opening).trans (hpath' opening)⟩
      · refine .inr ⟨hact ▸ hlt, fun opening => Goes.trans ?_ (hgoes' opening)⟩
        exact ⟨[], hdeeds.trans (List.append_nil _).symm, hpath opening⟩
    · -- What was overtaken stays so, whatever comes after it.
      exact .inr ⟨Nat.lt_of_lt_of_le hlt k.leads.activation_le,
        fun opening => (hgoes opening).trans k.leads⟩

/-- If the activation is left alone or overtaken, its frame can tell by the number. -/
theorem Heeds.freed (h : Heeds r l l') (hcurrent : l.machine.current = none)
    (hrequest : l.machine.request = none) : l.machine.Freed l'.machine := by
  intro hact
  rcases h.apart hcurrent hrequest with ⟨⟨-, hqueue, hcurrent', hrequest'⟩, -⟩ | ⟨hlt, -⟩
  · exact ⟨hqueue, hcurrent', hrequest'⟩
  · exact absurd hact (Nat.ne_of_gt hlt)

/-- Where nothing is done, an activation comes from the card that it came from. -/
theorem source_eq_of_path {s s' : Scene} (hpath : Scene.Path r s [] s') :
    s'.machine.source = s.machine.source := by
  generalize hnone : ([] : List Deed) = h at hpath
  induction hpath with
  | refl => rfl
  | @snoc _ _ _ d _ hstep ih =>
    obtain ⟨rfl, hdeed⟩ := List.append_eq_nil_iff.mp hnone.symm
    obtain rfl := Option.toList_eq_nil_iff.mp hdeed
    refine Eq.trans ?_ (ih rfl)
    cases hstep
    all_goals rfl

end Logbook

/-! ## What queueing does -/

namespace Engine

variable {r : Rules}

/-- Queueing effects throws dice and queues them one after another, up to the first whose magnitude
cannot be drawn. -/
theorem forM_enqueue_queues (source : Option Card) (effects : List Effect) (m : Machine) :
    ∃ t entries, m.table.Rolled t ∧ (exec (effects.forM (enqueue r source)) m).2 =
        { m with table := t, queue := m.queue ++ entries } ∧
      (∀ p ∈ entries, p.source = source) ∧ entries.map (·.effect) <+: effects ∧
      ∀ a, (exec (effects.forM (enqueue r source)) m).1 = .ok a →
        entries.map (·.effect) = effects := by
  induction effects generalizing m with
  | nil =>
    refine ⟨m.table, [], Std.Refl.refl _, ?_, List.forall_mem_nil _, List.prefix_rfl,
      fun _ _ => rfl⟩
    rw [List.append_nil]
    rfl
  | cons e rest ih =>
    have hrolled := Table.Rolled.magnitude e r m.results [] m.table
    change ∃ t entries, _ ∧ (exec (enqueue r source e >>= fun _ => rest.forM _) m).2 = _ ∧ _ ∧ _ ∧
      ∀ a, (exec (enqueue r source e >>= fun _ => rest.forM _) m).1 = _ → _
    rw [exec_bind, exec_enqueue]
    rcases hmag : exec (e.magnitude r m.results []) m.table with ⟨f | n, t⟩ <;> rw [hmag] at hrolled
    · -- Without a magnitude neither this effect is queued nor any behind it.
      refine ⟨t, [], hrolled, ?_, List.forall_mem_nil _, List.nil_prefix, ?_⟩
      · rw [List.append_nil]
      · rintro _ ⟨⟩
    · obtain ⟨u, entries, hmore, hstate, hsource, hprefix, hall⟩ := ih
        { m with table := t, queue := m.queue ++ [{ effect := e, speculative := n, source }] }
      refine ⟨u, { effect := e, speculative := n, source } :: entries,
        IsTrans.trans m.table t u hrolled hmore, ?_, List.forall_mem_cons.mpr ⟨rfl, hsource⟩, ?_,
        fun a ha => ?_⟩
      · dsimp only
        rw [hstate, List.append_assoc, List.singleton_append]
      · exact List.cons_prefix_cons.mpr ⟨rfl, hprefix⟩
      · exact congrArg (e :: ·) (hall a ha)

/-- Expanding groups throws dice and queues what they choose, up to the first effect whose magnitude
cannot be drawn. -/
theorem expand_queues (source : Option Card) (groups : List Group) (m : Machine) :
    ∃ t entries, m.table.Rolled t ∧ (exec (expand r source groups) m).2 =
        { m with table := t, queue := m.queue ++ entries } ∧
      (∀ p ∈ entries, p.source = source) ∧
      entries.map (·.effect) <+: groups.flatMap (·.chosen r m.table.game m.results) := by
  induction groups generalizing m with
  | nil =>
    refine ⟨m.table, [], Std.Refl.refl _, ?_, List.forall_mem_nil _, List.prefix_rfl⟩
    rw [List.append_nil]
    rfl
  | cons grp rest ih =>
    unfold expand
    rw [exec_get_bind, exec_bind, List.flatMap_cons]
    obtain ⟨t, entries, hrolled, hstate, hsource, hprefix, hall⟩ :=
      forM_enqueue_queues (r := r) source (grp.chosen r m.table.game m.results) m
    rcases hdone : exec ((grp.chosen r m.table.game m.results).forM (enqueue r source)) m
      with ⟨f | a, m'⟩ <;> rw [hdone] at hstate hall
    · exact ⟨t, entries, hrolled, hstate, hsource, hprefix.trans (List.prefix_append _ _)⟩
    · obtain rfl : m' = _ := hstate
      obtain ⟨u, more, hmore, hstate', hsource', hprefix'⟩ :=
        ih { m with table := t, queue := m.queue ++ entries }
      -- Dice do not count for conditions, so the other groups choose as they would have at first.
      have hgame : t.game = m.table.game := by
        obtain ⟨dice, rfl⟩ := hrolled
        rfl
      refine ⟨u, entries ++ more, IsTrans.trans _ _ _ hrolled hmore, ?_, ?_, ?_⟩
      · rw [hstate', List.append_assoc]
      · exact List.forall_mem_append.mpr ⟨hsource, hsource'⟩
      · rw [List.map_append, hall a rfl]
        rw [hgame] at hprefix'
        exact (List.prefix_append_right_inj _).mpr hprefix'

end Engine

/-! ## Calls -/

namespace Logged

open Logbook (Goes Leads LeavesAlone Overtakes Heeds)
open Machine (Freed)

variable {r : Rules} {m : Machine} {k : List Deed} {p : Pending}

theorem exec_complete (tell : Tell) (d : Deed) (p : Pending) (result : EffectResult)
    (magnitude : Int) (m : Machine) (k : List Deed) :
    exec (complete tell d p result magnitude) ⟨m, k⟩ =
      exec (tell (.executed p.effect.kind magnitude result))
        ⟨{ m with results := m.results.push result, current := none }, k ++ [d]⟩ := by
  unfold complete
  rw [LoggedRun.exec_note_bind, LoggedRun.exec_silent_modify_bind]

/-- An effect is carried out and logged with what was handed to it and the table of before. -/
theorem exec_dispatch (tell : Tell) (p : Pending) (x : Handover) (m : Machine) (k : List Deed) :
    exec (dispatch tell r p x) ⟨m, k⟩ =
      match exec (p.magnitude r x.targets m.results) m.table with
      | (.error f, t) => (.error (.fault f),
          ⟨{ m with phase := .dispatching, table := t }, k ++ [.faulted p x]⟩)
      | (.ok magnitude, t) =>
        let y : Execution :=
          ⟨{ effect := p.effect, magnitude, results := m.results, targets := x.targets }, t⟩
        exec (complete tell (.carriedOut p x y (y.after r) (y.result r)) p (y.result r) magnitude)
          ⟨{ m with phase := .dispatching, table := y.after r }, k⟩ := by
  unfold dispatch
  rw [LoggedRun.exec_silent_modify_bind, exec_bind, LoggedRun.exec_logging,
    Engine.exec_authoritative, Run.exec_play]
  rcases exec (p.magnitude r x.targets m.results) m.table with ⟨f | magnitude, t⟩
  · rfl
  · dsimp only [Except.mapError]
    rw [LoggedRun.exec_machine_bind, exec_bind, LoggedRun.exec_silent, Run.exec_attempt,
      List.append_nil]
    rfl

/-- Telling the observers does not fail, and they heed the activation. -/
structure Heedful (r : Rules) (tell : Tell) : Prop where
  tells : ∀ e, Throws (fun _ => False) (tell e)
  heeds : ∀ e, Keeps (Heeds r) (tell e)

variable {tell : Tell} (ht : Heedful r tell)

include ht

/-- Once the result of an effect is on the stack, the effect is done whatever observers do. -/
theorem tell_frees {l u : Logbook} (hpushed : Leads r l u)
    (hact : u.machine.activation = l.machine.activation)
    (hqueue : u.machine.queue = l.machine.queue) (hcurrent : u.machine.current = none)
    (hrequest : u.machine.request = none) (e : Event) :
    Leads r l (exec (tell e) u).2 ∧ l.machine.Freed (exec (tell e) u).2.machine := by
  have htold := ht.heeds e u
  refine ⟨IsTrans.trans _ _ _ hpushed htold.leads, fun h => ?_⟩
  rw [← hqueue]
  exact htold.freed hcurrent hrequest (h.trans hact.symm)

/-- Passing the effect in work over. -/
theorem passOver_frees (hcurrent : m.current = some p) (hrequest : m.request = none) :
    Leads r ⟨m, k⟩ (exec (passOver tell p) ⟨m, k⟩).2 ∧
      m.Freed (exec (passOver tell p) ⟨m, k⟩).2.machine := by
  rw [passOver, exec_complete]
  exact tell_frees ht (l := ⟨m, k⟩) (.of_deed (.passedOver m hcurrent hrequest)) rfl rfl rfl
    hrequest _

/-- Carrying the effect in work out on the targets that are fetched for it. That closes the request
in any case. If the effect cannot be measured it stays in work. -/
theorem dispatch_frees {targets : List Card} {t : Table} (hcurrent : m.current = some p)
    (hfetched : p.Fetches r m.request m.table targets t) :
    let done := exec (dispatch tell r p (m.handover p targets))
      ⟨{ m with request := none, table := t }, k⟩
    Leads r ⟨m, k⟩ done.2 ∧ ∀ a, done.1 = .ok a → m.Freed done.2.machine := by
  let ready : Machine := { m with phase := .dispatching }
  have hready : Leads r ⟨m, k⟩ ⟨ready, k⟩ :=
    .of_silent (.aside m none .dispatching m.observers m.record m.reports)
  dsimp only
  rw [exec_dispatch]
  dsimp only [Machine.handover]
  rcases hmagnitude : exec (p.magnitude r targets m.results) t with ⟨f | magnitude, u⟩
  · -- An effect without a magnitude stays in work, but then there is no outcome either.
    exact ⟨hready.trans (.of_deed (.faulted ready hcurrent hfetched hmagnitude)),
      fun _ h => nomatch h⟩
  · dsimp only
    rw [exec_complete]
    have hcarried := hready.trans
      (Goes.of_deed (.carriedOut ready hcurrent hfetched hmagnitude rfl))
    obtain ⟨hleads, hfreed⟩ := tell_frees ht hcarried rfl rfl rfl rfl _
    exact ⟨hleads, fun _ _ => hfreed⟩

/-- Taking an effect in work: it is done with, or its targets are still to be picked. -/
theorem work_frees (hcurrent : m.current = some p) (hrequest : m.request = none) :
    let done := exec (work tell r p) ⟨m, k⟩
    Leads r ⟨m, k⟩ done.2 ∧ (done.1 = .ok none → m.Freed done.2.machine) ∧
      ∀ q, done.1 = .ok (some q) → done.2 = ⟨m, k⟩ ∧ p.effect.target.needsSelection = true ∧
        q = p.effect.request (p.effect.selectable r m.table.game) := by
  -- What follows once an effect is done with only says so.
  have hlast : ∀ {x : LoggedRun Unit} {l : Logbook}, Leads r ⟨m, k⟩ (exec x l).2 →
      (∀ a, (exec x l).1 = .ok a → m.Freed (exec x l).2.machine) →
      let done := exec (x >>= fun _ => (pure none : LoggedRun (Option TargetRequest))) l
      Leads r ⟨m, k⟩ done.2 ∧ (done.1 = .ok none → m.Freed done.2.machine) ∧
        ∀ q, done.1 = .ok (some q) → done.2 = ⟨m, k⟩ ∧
          p.effect.target.needsSelection = true ∧
            q = p.effect.request (p.effect.selectable r m.table.game) := by
    intro x l hleads hfreed
    dsimp only
    rw [exec_bind]
    rcases hdone : exec x l with ⟨e | a, l'⟩ <;> rw [hdone] at hleads hfreed
    · exact ⟨hleads, fun h => (nomatch h), fun _ h => nomatch h⟩
    · exact ⟨hleads, fun _ => hfreed a rfl, fun _ h => nomatch h⟩
  unfold work
  rw [exec_ite]
  split
  · next hsel =>
    rw [LoggedRun.exec_machine_bind]
    dsimp only
    rw [exec_ite]
    split
    · obtain ⟨hleads, hfreed⟩ := passOver_frees (r := r) (k := k) ht hcurrent hrequest
      exact hlast hleads fun _ _ => hfreed
    · rw [exec_ite]
      split
      · next hauto =>
        obtain ⟨hleads, hfreed⟩ := dispatch_frees (r := r) (k := k) ht hcurrent
          (.picked hsel hrequest hauto)
        -- No request was open, so closing it changes nothing.
        rw [← hrequest] at hleads hfreed
        exact hlast hleads hfreed
      · refine ⟨Std.Refl.refl _, fun h => (nomatch h), fun q hq => ?_⟩
        cases hq
        exact ⟨rfl, hsel, rfl⟩
  · next hsel =>
    have hauto := Bool.eq_false_iff.mpr hsel
    let collecting : Machine := { m with phase := .autoTargeting }
    have hcollecting : Leads r ⟨m, k⟩ ⟨collecting, k⟩ :=
      .of_silent (.aside m none .autoTargeting m.observers m.record m.reports)
    rw [LoggedRun.exec_machine_bind, LoggedRun.exec_silent_modify_bind, exec_bind,
      LoggedRun.exec_silent, Run.exec_play]
    have hrolled := Table.Rolled.autoTargets p.effect r p.source m.table
    rcases hdone : exec (p.effect.autoTargets r p.source) m.table with ⟨f | targets, t⟩ <;>
      rw [hdone] at hrolled
    · -- There are no targets, so nothing is handed over.
      exact ⟨hcollecting.trans (.of_silent (.rolled collecting none hrolled)),
        fun h => (nomatch h), fun _ h => nomatch h⟩
    · obtain ⟨hleads, hfreed⟩ := dispatch_frees (r := r) (k := k) (m := collecting) ht hcurrent
        (.collected hauto hrequest hdone)
      have hsame : ({ collecting with request := none, table := t } : Machine) =
          { collecting with table := t } := by
        rw [← show collecting.request = none from hrequest]
      rw [hsame] at hleads hfreed
      exact hlast (hcollecting.trans hleads) hfreed

/-- The queue is worked off along a path, as long as no other activation takes over. -/
theorem drain_leads (queue : List Pending) (hqueue : m.queue = queue) (hcurrent : m.current = none)
    (hrequest : m.request = none) :
    Leads r ⟨m, k⟩ (exec (drain tell r m.activation queue) ⟨m, k⟩).2 := by
  generalize hn : m.activation = n
  induction queue generalizing m k with
  | nil =>
    let done : Machine := { m with phase := .completed }
    have hdone : Leads r ⟨m, k⟩ ⟨done, k⟩ :=
      .of_silent (.aside m none .completed m.observers m.record m.reports)
    unfold drain finish
    rw [LoggedRun.exec_silent_modify_bind, LoggedRun.exec_machine_bind, LoggedRun.exec_note_bind,
      LoggedRun.exec_silent_set_bind]
    refine (hdone.trans (.of_deed (.completed done rfl hqueue hcurrent hrequest))).trans ?_
    exact Keeps.bind_from (R := Leads r) (ht.heeds _ _).leads fun _ => .pure _
  | cons p rest ih =>
    let taken : Machine := { m with queue := rest, current := some p }
    have htaken : Leads r ⟨m, k⟩ ⟨taken, k⟩ := .of_silent (.taken m hqueue hcurrent hrequest)
    obtain ⟨hleads, hfreed, hasked⟩ := work_frees (r := r) (k := k) (m := taken) (p := p) ht rfl
      hrequest
    rw [drain, LoggedRun.exec_silent_modify_bind]
    refine htaken.trans (Keeps.bind_of_exec (R := Leads r) hleads fun answer l' hdone => ?_)
    rw [hdone] at hfreed hasked
    cases answer with
    | none =>
      -- The rest follows, unless another activation took over meanwhile.
      dsimp only
      rw [LoggedRun.exec_machine_bind, exec_ite]
      split
      · next hsame =>
        obtain ⟨hqueue', hcurrent', hrequest'⟩ := hfreed rfl (hsame.trans hn.symm)
        exact ih (m := l'.machine) (k := l'.deeds) hqueue' hcurrent' hrequest' hsame
      · rw [exec_outcome]
        exact .refl
    | some q =>
      obtain ⟨rfl, hsel, rfl⟩ := hasked q rfl
      let asking : Machine := { taken with phase := .awaitingTarget }
      have hasking : Leads r ⟨taken, k⟩ ⟨asking, k⟩ :=
        .of_silent (.aside taken none .awaitingTarget m.observers m.record m.reports)
      dsimp only
      unfold suspend
      rw [LoggedRun.exec_silent_modify_bind, LoggedRun.exec_note_bind]
      -- What is done while the player is told of the request is a path of its own.
      refine (hasking.trans (.of_deed (.asked asking rfl hsel))).trans ?_
      exact Keeps.bind_from (R := Leads r) (ht.heeds _ _).leads fun _ => .of_fixed fun _ => by
        rw [exec_outcome]

/-- Going on with the queue, unless another activation took over. -/
theorem proceed_leads {n : Nat} {l : Logbook}
    (h : l.machine.activation = n → l.machine.current = none ∧ l.machine.request = none) :
    Leads r l (exec (proceed tell r n) l).2 := by
  unfold proceed
  rw [LoggedRun.exec_machine_bind, exec_ite]
  split
  · next hact =>
    subst hact
    exact drain_leads ht (m := l.machine) (k := l.deeds) l.machine.queue rfl (h rfl).1 (h rfl).2
  · rw [exec_outcome]
    exact .refl

/-- An activation that has begun queues its effects and works them off. -/
theorem expand_goes (groups : List Group) (source : Option Card) (hsource : m.source = source)
    (hcurrent : m.current = none) (hrequest : m.request = none) :
    Goes r (some groups) ⟨m, k⟩ none (exec (do
      LoggedRun.silent (modify fun m => { m with phase := .expanding })
      expand r source groups
      proceed tell r m.activation) ⟨m, k⟩).2 := by
  let opening : Machine := { m with phase := .expanding }
  have hopening : Goes r (some groups) ⟨m, k⟩ (some groups) ⟨opening, k⟩ :=
    .of_silent (.aside m (some groups) .expanding m.observers m.record m.reports)
  obtain ⟨t, entries, hrolled, hstate, hentries, hprefix⟩ :=
    Engine.expand_queues (r := r) source groups opening
  have hgame : t.game = m.table.game := by
    obtain ⟨dice, rfl⟩ := hrolled
    rfl
  have hqueued :
      Goes r (some groups) ⟨m, k⟩ none (exec (expand r source groups) ⟨opening, k⟩).2 := by
    rw [expand, LoggedRun.exec_logging, hstate]
    -- What the log takes for queued is what the queue has behind its old length.
    have hlogged : (m.queue ++ entries).drop m.queue.length = entries := List.drop_left
    have hgroups : Scene.Step r ⟨{ opening with table := t }, some groups⟩
        (some (.queued entries t.game))
        ⟨{ opening with table := t, queue := m.queue ++ entries }, none⟩ :=
      .queued { opening with table := t } groups entries (hgame ▸ hprefix)
        fun p hp => (hentries p hp).trans hsource.symm
    dsimp only [opening]
    rw [hlogged, ← hgame]
    exact (hopening.trans (.of_silent (.rolled opening (some groups) hrolled))).trans
      (.of_deed hgroups)
  rw [LoggedRun.exec_silent_modify_bind, exec_bind]
  rcases hdone : exec (expand r source groups) ⟨opening, k⟩ with ⟨e | ⟨⟩, l⟩ <;>
    rw [hdone] at hqueued
  · exact hqueued
  · refine hqueued.trans (proceed_leads ht fun _ => ?_)
    -- Queueing leaves the effect in work and the request alone, so there is still neither.
    have hmachine : l.machine = (exec (Engine.expand r source groups) opening).2 := by
      rw [expand, LoggedRun.exec_logging] at hdone
      exact (congrArg (·.2.machine) hdone).symm
    rw [hmachine, hstate]
    exact ⟨hcurrent, hrequest⟩

/-- An activation that begins does what it has to do, unless another one begins while observers are
told of it. -/
theorem start_goes (groups : List Group) (source : Option Card)
    (hfree : ¬ (m.isBusy && r.config.policy = .reject) = true) :
    Goes r (some groups)
      ⟨{ m with activation := m.activation + 1, queue := [], results := {}, current := none,
                request := none, source }, k ++ [.began groups source m.table]⟩
      none (exec (start tell r groups source) ⟨m, k⟩).2 := by
  unfold start
  rw [LoggedRun.exec_machine_bind, if_neg hfree]
  dsimp only
  rw [LoggedRun.exec_note_bind, LoggedRun.exec_silent_set_bind]
  generalize hl : (⟨{ m with
    activation := m.activation + 1, queue := [], results := {}, current := none, request := none,
    source }, k ++ [.began groups source m.table]⟩ : Logbook) = began
  have hact : began.machine.activation = m.activation + 1 := by rw [← hl]
  have hcurrent : began.machine.current = none := by rw [← hl]
  have hrequest : began.machine.request = none := by rw [← hl]
  have hsource : began.machine.source = source := by rw [← hl]
  have htold := ht.heeds (.started source) began
  rw [exec_bind]
  rcases hdone : exec (tell (.started source)) began with ⟨e | ⟨⟩, l⟩ <;> rw [hdone] at htold
  · exact (ht.tells _ began e (congrArg Prod.fst hdone)).elim
  · dsimp only
    rw [LoggedRun.exec_machine_bind]
    rcases htold.apart hcurrent hrequest with
      ⟨⟨hact', -, hcurrent', hrequest'⟩, hdeeds, hpath⟩ | ⟨hlt, hgoes⟩
    · rw [hact] at hact'
      rw [if_pos hact', ← hact']
      have hsource' := (Logbook.source_eq_of_path (hpath none)).trans hsource
      refine Goes.trans ⟨[], hdeeds.trans (List.append_nil _).symm, hpath (some groups)⟩ ?_
      exact expand_goes (m := l.machine) (k := l.deeds) ht groups source hsource' hcurrent'
        hrequest'
    · -- Another activation has begun, so this one has nothing more to do.
      rw [hact] at hlt
      rw [if_neg (Nat.ne_of_gt hlt), exec_outcome]
      exact hgoes (some groups)

/-- It overtakes whatever was in flight. -/
theorem start_overtakes (groups : List Group) (source : Option Card)
    (hfree : ¬ (m.isBusy && r.config.policy = .reject) = true) :
    Overtakes r ⟨m, k⟩ (exec (start tell r groups source) ⟨m, k⟩).2 := by
  have hgoes := start_goes (k := k) ht groups source hfree
  refine ⟨hgoes.activation_le, fun opening => Goes.trans ?_ hgoes⟩
  exact .of_deed (.began m opening groups source)

theorem start_heeds (groups : List Group) (source : Option Card) :
    Keeps (Heeds r) (start tell r groups source) := by
  rintro ⟨m, k⟩
  by_cases hbusy : (m.isBusy && r.config.policy = .reject) = true
  · unfold start
    rw [LoggedRun.exec_machine_bind, if_pos hbusy]
    exact Std.Refl.refl (r := Heeds r) _
  · have hover := start_overtakes (k := k) ht groups source hbusy
    exact ⟨hover.2 none, fun _ _ => .inr hover⟩

/-- Answering the request works its effect and the rest of the queue off. Where there is no request
nothing is done. -/
theorem resume_heeds (ids : List String) : Keeps (Heeds r) (resume tell r ids) := by
  rintro ⟨m, k⟩
  have hsame := Std.Refl.refl (r := Heeds r) (⟨m, k⟩ : Logbook)
  unfold resume
  rw [LoggedRun.exec_machine_bind]
  rcases hrequest : m.request with _ | q
  · exact hsame
  · dsimp only
    rw [exec_ite]
    split
    · exact hsame
    · rcases hselected : Engine.selected q ids with _ | targets
      · exact hsame
      · refine ⟨?_, fun _ hnone => absurd (hrequest.symm.trans hnone) (Option.some_ne_none q)⟩
        dsimp only
        rw [LoggedRun.exec_silent_modify_bind, exec_bind, LoggedRun.exec_silent,
          Engine.exec_current]
        rcases hcurrent : m.current with _ | p
        · -- No effect waits for the answer.
          have hclosed : Leads r ⟨m, k⟩ ⟨{ m with request := none }, k⟩ :=
            .of_silent (.closed m)
          rwa [hcurrent] at hclosed
        · obtain ⟨hleads, hfreed⟩ := dispatch_frees (r := r) (k := k) (m := m) (p := p) ht
            hcurrent (.answered hrequest hselected)
          rw [hcurrent] at hleads hfreed
          refine Keeps.bind_of_exec (R := Leads r) hleads fun a l' hdone => ?_
          rw [hdone] at hfreed
          exact proceed_leads ht fun hact => (hfreed a rfl hact).2

/-- Cancelling the request passes its effect over and works the rest of the queue off. Where there
is no request nothing is done. -/
theorem cancel_heeds : Keeps (Heeds r) (cancel tell r) := by
  rintro ⟨m, k⟩
  have hclosed : Leads r ⟨m, k⟩ ⟨{ m with request := none }, k⟩ := .of_silent (.closed m)
  unfold cancel
  rw [LoggedRun.exec_machine_bind, exec_ite]
  split
  · rw [exec_outcome]
    exact Std.Refl.refl (r := Heeds r) _
  · rw [LoggedRun.exec_silent_modify_bind, exec_bind, LoggedRun.exec_silent, Engine.exec_current]
    rcases hcurrent : m.current with _ | p
    · -- Nothing is in work, so all that can change is a request that was left open.
      rw [hcurrent] at hclosed
      refine ⟨hclosed, fun _ hrequest => .inl ?_⟩
      have hm : ({ m with current := none, request := none } : Machine) = m := by
        rw [← hrequest, ← hcurrent]
      change LeavesAlone r ⟨m, k⟩ ⟨{ m with current := none, request := none }, k⟩
      rw [hm]
      exact Logbook.leavesAlone_of_aside hcurrent hrequest _ _ _ _
    · refine ⟨?_, fun hnone => absurd (hcurrent.symm.trans hnone) (Option.some_ne_none p)⟩
      obtain ⟨hleads, hfreed⟩ := passOver_frees (r := r) (k := k) (p := p) ht
        (m := { m with request := none }) hcurrent rfl
      rw [hcurrent] at hclosed hleads hfreed
      refine hclosed.trans (Keeps.bind_of_exec (R := Leads r) hleads fun a l' hdone => ?_)
      rw [hdone] at hfreed
      exact proceed_leads ht fun hact => (hfreed hact).2

omit ht

/-- However deep notifications are nested, they heed the activation. A host may mean the source of
another one by its id, which is nothing to the one in work. -/
theorem notify_heedful (depth : Nat) : Heedful r (notify r depth) := by
  refine ⟨notify_tells r depth, keeps_notify (R := Heeds r)
    (fun m k => Logbook.heeds_of_aside m k m.phase) (fun depth ih => ?_) depth⟩
  have ht : Heedful r (notify r depth) := ⟨notify_tells r depth, ih⟩
  refine keeps_perform (fun m k id => ?_) (start_heeds ht) (resume_heeds ht) (cancel_heeds ht)
  have hnamed := fun opening => Scene.Step.named (r := r) m opening id
  exact ⟨.of_silent (hnamed none), fun hcurrent hrequest =>
    .inl ⟨⟨rfl, rfl, hcurrent, hrequest⟩, rfl, fun opening => .of_step (hnamed opening)⟩⟩

end Logged

/-- Observers that are told of an event while no effect is in work leave the activation alone or
change its number, so its frame can tell. -/
theorem Engine.notify_frees (r : Rules) (depth : Nat) (e : Event) {m : Machine}
    (hcurrent : m.current = none) (hrequest : m.request = none) :
    m.Freed (exec (Engine.notify r depth e) m).2 := by
  have hheeds := (Logged.notify_heedful (r := r) depth).heeds e { machine := m }
  rw [Logged.notify_erases r depth e { machine := m }]
  exact hheeds.freed hcurrent hrequest

namespace Machine

variable {r : Rules}

/-- What a call does is a history between the machines before and after it, with all that is done in
calls that observers make inside it. -/
theorem path_deedsOf (m : Machine) (c : HostCall) :
    Scene.Path r ⟨m, none⟩ (m.deedsOf r c) ⟨(m.call r c).2, none⟩ := by
  have ht := Logged.notify_heedful (r := r) m.depth
  have hleads : Logbook.Leads r { machine := m } (m.logged r c).2 := by
    unfold logged
    rcases c with ⟨groups, source⟩ | ⟨ids⟩ | _
    · exact (Logged.start_heeds ht groups source _).leads
    · exact (Logged.resume_heeds ht ids _).leads
    · exact (Logged.cancel_heeds ht _).leads
  obtain ⟨h, hdeeds, hpath⟩ := hleads
  rw [call_eq_logged, deedsOf, hdeeds, List.nil_append]
  exact hpath

end Machine

end Treasury
