import Treasury.Proofs.Activation.Flight
import Treasury.Proofs.Activation.Refusal

/-!
# Activations in flight are protected

Where activations in flight refuse others, observers may start as many as they like: those that they
start meanwhile are refused and leave the machine alone. The exception are observers that are told
that an activation has started. It is in flight only when its effects are queued, so one that is
started before that overtakes it.

* `Machine.StartsOnly` are the machines whose observers do no more than start activations.
* `Logbook.Brushes` and `Logbook.TakesOver` are what a notification comes to, on a machine that is
  busy and on one that is not, and `Logged.Polite` says so of a way to tell the observers.
* `Logbook.Aloft`: whatever polite observers do, a flight goes on. `Logged.drain_lands`: it ends
  with its own queue.
* `Logged.polite_notify` closes the circle, and `calls_protect_flights` is the statement for the
  calls of a host.
-/

namespace Treasury

namespace Machine

/-- All that observers do is to start activations. Whether they may do it when they are told that
another one has started is given by `early`. -/
def StartsOnly (early : Bool) (m : Machine) : Prop :=
  ∀ o, .order o ∈ m.observers →
    (∃ groups source, o.command = .start groups source) ∧ (early = false → o.moment ≠ .started)

/-- Whether something is in flight. -/
def flight (m : Machine) : Flight := if m.isBusy then .flying else .free

variable {m : Machine}

theorem flight_of_busy (h : m.isBusy = true) : m.flight = .flying := if_pos h

theorem flight_of_free (h : m.isBusy = false) : m.flight = .free :=
  if_neg (Bool.eq_false_iff.mp h)

end Machine

namespace Logbook

variable {early : Bool} {n k : Nat} {f f' : Flight} {l l' l'' : Logbook}

/-- The activation is left alone. -/
structure Brushes (early : Bool) (l l' : Logbook) : Prop where
  /-- Nothing is done, and nothing that is reported was accepted. -/
  flies : ∀ f, Flies early 0 f l f l'
  phase_eq : l'.machine.phase = l.machine.phase
  activation_eq : l'.machine.activation = l.machine.activation

/-- Other activations begin, the last of which may be in flight in the end. -/
structure TakesOver (early : Bool) (l l' : Logbook) : Prop where
  /-- Whatever opened before, the others fly undisturbed. -/
  flies : ∀ f, Flight.Open early f → Flies early 0 f l l'.machine.flight l'
  activation_lt : l.machine.activation < l'.machine.activation

/-- What a notification comes to: the activation is left alone or, if nothing is in flight, others
may begin. -/
def Minds (early : Bool) (l l' : Logbook) : Prop :=
  l.machine.StartsOnly early → l'.machine.StartsOnly early ∧
    (Brushes early l l' ∨ l.machine.isBusy = false ∧ TakesOver early l l')

instance : IsPreorder Logbook (Brushes early) where
  refl _ := ⟨fun _ => .refl, rfl, rfl⟩
  trans _ _ _ h k := ⟨fun f => (h.flies f).trans_zero (k.flies f), k.phase_eq.trans h.phase_eq,
    k.activation_eq.trans h.activation_eq⟩

theorem Brushes.isBusy_eq (h : Brushes early l l') : l'.machine.isBusy = l.machine.isBusy := by
  rw [Machine.isBusy, Machine.isBusy, h.phase_eq]

theorem Brushes.flight_eq (h : Brushes early l l') : l'.machine.flight = l.machine.flight := by
  rw [Machine.flight, Machine.flight, h.isBusy_eq]

instance : IsPreorder Logbook (Minds early) where
  refl l hl := ⟨hl, .inl (Std.Refl.refl l)⟩
  trans l l' l'' := by
    intro h k hl
    obtain ⟨hl', h⟩ := h hl
    obtain ⟨hl'', k⟩ := k hl'
    refine ⟨hl'', ?_⟩
    rcases h with hbrush | ⟨hfree, htake⟩
    -- What leaves the activation alone keeps it as busy as it was.
    · rcases k with kbrush | ⟨kfree, ktake⟩
      · exact .inl (IsTrans.trans _ _ _ hbrush kbrush)
      · refine .inr ⟨hbrush.isBusy_eq.symm.trans kfree, fun f hopen => ?_, ?_⟩
        · exact (hbrush.flies f).trans_zero (ktake.flies f hopen)
        · exact hbrush.activation_eq ▸ ktake.activation_lt
    · refine .inr ⟨hfree, ?_⟩
      rcases k with kbrush | ⟨kfree, ktake⟩
      · refine ⟨fun f hopen => ?_, kbrush.activation_eq ▸ htake.activation_lt⟩
        rw [kbrush.flight_eq]
        exact (htake.flies f hopen).trans_zero (kbrush.flies _)
      · -- The first of the others are completed when the next ones begin.
        refine ⟨fun f hopen => ?_, Nat.lt_trans htake.activation_lt ktake.activation_lt⟩
        have hfirst := htake.flies f hopen
        rw [Machine.flight_of_free kfree] at hfirst
        exact hfirst.trans_zero (ktake.flies .free (.inl rfl))

/-- What changes of the table or of the observers' notes leaves the activation alone. -/
theorem brushes_of_noted (l : Logbook) (table : Table) (observers : List Observer)
    (record : List Event) :
    Brushes early l { l with machine := { l.machine with table, observers, record } } where
  flies _ := .of_silent rfl rfl
  phase_eq := rfl
  activation_eq := rfl

/-- A flight goes on, and observers still do no more than start activations. -/
def Aloft (early : Bool) (l l' : Logbook) : Prop :=
  l.machine.StartsOnly early → l.machine.isBusy = true →
    l'.machine.StartsOnly early ∧ l'.machine.isBusy = true ∧ Flies early 0 .flying l .flying l'

instance : IsPreorder Logbook (Aloft early) where
  refl _ hl hbusy := ⟨hl, hbusy, .refl⟩
  trans _ _ _ h k hl hbusy := by
    obtain ⟨hl', hbusy', hflies⟩ := h hl hbusy
    obtain ⟨hl'', hbusy'', hflies'⟩ := k hl' hbusy'
    exact ⟨hl'', hbusy'', hflies.trans_zero hflies'⟩

/-- Where something is in flight, notifications leave it there. -/
theorem Minds.aloft (h : Minds early l l') : Aloft early l l' := by
  intro hl hbusy
  obtain ⟨hl', hbrush | ⟨hfree, -⟩⟩ := h hl
  · exact ⟨hl', hbrush.isBusy_eq.trans hbusy, hbrush.flies .flying⟩
  · exact absurd hbusy (Bool.eq_false_iff.mp hfree)

/-- What is logged leads from flight to where the machine stands then. -/
def Lands (early : Bool) (n : Nat) (f : Flight) (l l' : Logbook) : Prop :=
  l'.machine.StartsOnly early ∧ Flies early n f l l'.machine.flight l'

theorem Lands.of_flies (hfirst : Flies early n f l f' l') (h : Lands early k f' l' l'') :
    Lands early (n + k) f l l'' := ⟨h.1, hfirst.trans h.2⟩

theorem Lands.of_flies_zero (hfirst : Flies early 0 f l f' l') (h : Lands early n f' l' l'') :
    Lands early n f l l'' := ⟨h.1, hfirst.trans_zero h.2⟩

/-- A flight that goes on has not landed, but stands where the machine does. -/
theorem Aloft.lands (h : Aloft early l l') (hl : l.machine.StartsOnly early)
    (hbusy : l.machine.isBusy = true) : Lands early 0 .flying l l' := by
  obtain ⟨hl', hbusy', hflies⟩ := h hl hbusy
  refine ⟨hl', ?_⟩
  rwa [Machine.flight_of_busy hbusy']

/-- After a notification the machine has landed, wherever it was. -/
theorem Minds.lands (h : Minds early l l') (hl : l.machine.StartsOnly early) :
    Lands early 0 l.machine.flight l l' := by
  obtain ⟨hl', hbrush | ⟨hfree, htake⟩⟩ := h hl
  · refine ⟨hl', ?_⟩
    rw [hbrush.flight_eq]
    exact hbrush.flies _
  · exact ⟨hl', htake.flies _ (.inl (Machine.flight_of_free hfree))⟩

end Logbook

namespace Logged

open Logbook (Flies Brushes TakesOver Minds Aloft Lands)

variable {α : Type} {early : Bool} {r : Rules} {l : Logbook}

/-- A way to tell the observers and what it is without a log. The observers mind what is in flight,
and those that may not begin anything early leave an activation alone that has just started. -/
structure Polite (early : Bool) (r : Rules) (tell : Tell) (tell' : Engine.Tell) : Prop where
  heedful : Heedful r tell
  erases : ∀ e, Erases (tell e) (tell' e)
  tells : Engine.Tells tell'
  minds : ∀ e, Keeps (Minds early) (tell e)
  opens : early = false → ∀ source l, l.machine.StartsOnly early →
    Brushes early l (exec (tell (.started source)) l).2

/-! ### In flight -/

/-- What changes beside the log leaves an activation in flight if the machine stays busy. -/
theorem silent_aloft {x : Run α}
    (h : ∀ m : Machine, m.isBusy = true → (exec x m).2.observers = m.observers ∧
      (exec x m).2.isBusy = true ∧ (exec x m).2.reports = m.reports) :
    Keeps (Aloft early) (LoggedRun.silent x) := by
  intro l hl hbusy
  obtain ⟨hobservers, hbusy', hreports⟩ := h l.machine hbusy
  rw [LoggedRun.exec_silent]
  refine ⟨?_, hbusy', .of_silent rfl hreports⟩
  unfold Machine.StartsOnly
  rw [hobservers]
  exact hl

theorem machine_aloft : Keeps (Aloft early) LoggedRun.machine := .of_fixed fun _ => rfl

theorem outcome_aloft : Keeps (Aloft early) outcome := .of_fixed fun l => by rw [exec_outcome]

theorem play_aloft (action : Play α) : Keeps (Aloft early) (LoggedRun.silent (Run.play action)) :=
  silent_aloft fun m hbusy => by
    rw [Run.exec_play]
    exact ⟨rfl, hbusy, rfl⟩

theorem current_aloft : Keeps (Aloft early) (LoggedRun.silent Engine.current) :=
  silent_aloft fun m hbusy => by
    rw [Engine.exec_current]
    exact ⟨rfl, hbusy, rfl⟩

/-- A deed that belongs to a flight is logged. -/
theorem aloft_of_deed {m : Machine} {ds : List Deed} {d : Deed}
    (hd : d.flight early .flying = some .flying) (hbegan : d.isBegan = false) :
    Aloft early ⟨m, ds⟩ ⟨m, ds ++ [d]⟩ :=
  fun hm hbusy => ⟨hm, hbusy, .of_deed hd hbegan rfl rfl⟩

/-- While a flight goes on, it is taken where it stands, and then where the rest of the call
ends. -/
theorem lands_bind {x : LoggedRun α} {f : α → LoggedRun Outcome} (hx : Keeps (Aloft early) x)
    (hl : l.machine.StartsOnly early) (hbusy : l.machine.isBusy = true)
    (hf : ∀ a l', l'.machine.StartsOnly early → l'.machine.isBusy = true →
      Lands early 0 .flying l' (exec (f a) l').2) :
    Lands early 0 .flying l (exec (x >>= f) l).2 := by
  obtain ⟨hl', hbusy', hflies⟩ := hx l hl hbusy
  have hlands := (hx l).lands hl hbusy
  rw [exec_bind]
  rcases hdone : exec x l with ⟨e | a, l'⟩ <;> rw [hdone] at hl' hbusy' hflies hlands
  · exact hlands
  · exact .of_flies_zero hflies (hf a l' hl' hbusy')

section Calls

variable {tell : Tell} {tell' : Engine.Tell} (ht : Polite early r tell tell')

include ht

theorem tell_aloft (e : Event) : Keeps (Aloft early) (tell e) := fun l => (ht.minds e l).aloft

/-- An effect in flight is done with. -/
theorem complete_aloft {d : Deed} (hd : d.flight early .flying = some .flying)
    (hbegan : d.isBegan = false) (p : Pending) (result : EffectResult) (magnitude : Int) :
    Keeps (Aloft early) (complete tell d p result magnitude) := by
  refine .bind (fun l => ?_) fun _ => .bind (silent_aloft fun m hbusy => ⟨rfl, hbusy, rfl⟩)
    fun _ => tell_aloft ht _
  exact aloft_of_deed hd hbegan

theorem dispatch_aloft (p : Pending) (x : Handover) :
    Keeps (Aloft early) (dispatch tell r p x) := by
  refine .bind (silent_aloft fun _ _ => ⟨rfl, rfl, rfl⟩) fun _ => .bind (fun l => ?_)
    fun magnitude => .bind machine_aloft fun before => .bind (silent_aloft fun m hbusy => ?_)
      fun result => .bind machine_aloft fun after => complete_aloft ht rfl rfl _ _ _
  · rw [LoggedRun.exec_logging, Engine.exec_authoritative, Run.exec_play]
    -- Working the magnitude out may fail, which is a deed then.
    rcases exec (p.magnitude r x.targets l.machine.results) l.machine.table with ⟨f | n, t⟩
    · exact IsTrans.trans (r := Aloft early) _ ⟨{ l.machine with table := t }, l.deeds⟩ _
        (fun hl hbusy => ⟨hl, hbusy, .of_silent rfl rfl⟩) (aloft_of_deed rfl rfl)
    · exact fun hl hbusy => ⟨hl, hbusy, .of_silent (List.append_nil _) rfl⟩
  · rw [Run.exec_attempt]
    exact ⟨rfl, hbusy, rfl⟩

theorem work_aloft (p : Pending) : Keeps (Aloft early) (work tell r p) := by
  refine .ite (.bind machine_aloft fun m => ?_) (.bind machine_aloft fun m => ?_)
  · exact .ite (.bind (complete_aloft ht rfl rfl _ _ _) fun _ => .pure _)
      (.ite (.bind (dispatch_aloft ht p _) fun _ => .pure _) (.pure _))
  · exact .bind (silent_aloft fun _ _ => ⟨rfl, rfl, rfl⟩) fun _ => .bind (play_aloft _)
      fun targets => .bind (dispatch_aloft ht p _) fun _ => .pure _

/-- The machine is busy while the observers are told of a request, and it stays so. -/
theorem suspend_aloft (p : Pending) (q : TargetRequest) :
    Keeps (Aloft early) (suspend tell p q) :=
  .bind (silent_aloft fun _ _ => ⟨rfl, rfl, rfl⟩) fun _ => .bind (fun _ => aloft_of_deed rfl rfl)
    fun _ => .bind (tell_aloft ht _) fun _ => outcome_aloft

/-- An activation is completed before the observers are told, and others may begin then. -/
theorem finish_lands (hl : l.machine.StartsOnly early) :
    Lands early 0 .flying l (exec (finish tell) l).2 := by
  unfold finish
  rw [LoggedRun.exec_silent_modify_bind, LoggedRun.exec_machine_bind, LoggedRun.exec_note_bind,
    LoggedRun.exec_silent_set_bind]
  dsimp only
  -- The logbook is named, so that what observers do from there is not mixed up with how it came.
  generalize hdone : (⟨{ l.machine with
    phase := .completed, queue := [], results := {}, current := none, source := none },
    l.deeds ++
      [.completed { l.machine with phase := .completed }.outcome l.machine.table]⟩ : Logbook) = done
  have hflies : Flies early 0 .flying l .free done := by
    subst hdone
    exact .of_deed rfl rfl rfl rfl
  have hstarts : done.machine.StartsOnly early := by
    rw [← hdone]
    exact hl
  have hfree : done.machine.flight = .free := by
    rw [← hdone]
    rfl
  rw [bind_pure_comp, exec_map]
  have hlands := (ht.minds (.completed l.machine.source) done).lands hstarts
  rw [hfree] at hlands
  exact .of_flies_zero hflies hlands

/-- Whatever polite observers do, a flight goes on with its own queue until it ends or asks. -/
theorem drain_lands (activation : Nat) (queue : List Pending) (hl : l.machine.StartsOnly early)
    (hbusy : l.machine.isBusy = true) :
    Lands early 0 .flying l (exec (drain tell r activation queue) l).2 := by
  induction queue generalizing l with
  | nil => exact finish_lands ht hl
  | cons p rest ih =>
    rw [drain]
    refine lands_bind (silent_aloft fun m hbusy => ⟨rfl, hbusy, rfl⟩) hl hbusy
      fun _ l' hl' hbusy' => lands_bind (work_aloft ht p) hl' hbusy'
        fun request l'' hl'' hbusy'' => ?_
    -- The flight goes on if no request was made, and waits with the request otherwise.
    cases request with
    | some q => exact (suspend_aloft ht p q l'').lands hl'' hbusy''
    | none =>
      refine lands_bind machine_aloft hl'' hbusy'' fun m u hu hbusy' => ?_
      rw [exec_ite]
      split
      · exact ih hu hbusy'
      · exact (outcome_aloft u).lands hu hbusy'

theorem proceed_lands (activation : Nat) (hl : l.machine.StartsOnly early)
    (hbusy : l.machine.isBusy = true) :
    Lands early 0 .flying l (exec (proceed tell r activation) l).2 := by
  refine lands_bind machine_aloft hl hbusy fun m u hu hbusy' => ?_
  rw [exec_ite]
  split
  · exact drain_lands ht _ _ hu hbusy'
  · exact (outcome_aloft u).lands hu hbusy'

/-- An activation that has begun queues its effects, which puts it in flight. -/
theorem expand_lands (groups : List Group) (source : Option Card) (activation : Nat)
    (hl : l.machine.StartsOnly early) :
    Lands early 0 .opening l (exec (do
      LoggedRun.silent (modify fun m => { m with phase := .expanding })
      expand r source groups
      proceed tell r activation) l).2 := by
  rw [LoggedRun.exec_silent_modify_bind, exec_bind, expand, LoggedRun.exec_logging]
  obtain ⟨t, entries, -, hstate, -⟩ :=
    Engine.expand_queues (r := r) source groups { l.machine with phase := .expanding }
  rcases hdone : exec (Engine.expand r source groups) { l.machine with phase := .expanding }
    with ⟨answer, m⟩
  rw [hdone] at hstate
  obtain rfl : m = _ := hstate
  have hqueued : ∀ {u : Machine} {entries : List Pending} {l' : Logbook},
      u.reports = l.machine.reports →
        Lands early 0 .flying ⟨u, l.deeds ++ [.queued entries l.machine.table.game]⟩ l' →
          Lands early 0 .opening l l' :=
    fun hreports h => .of_flies_zero (.of_deed rfl rfl rfl hreports) h
  rcases answer with e | ⟨⟩
  · -- A magnitude cannot be drawn, and what was queued before it stays in flight.
    exact hqueued rfl ⟨hl, .refl⟩
  · exact hqueued rfl (proceed_lands ht activation hl rfl)

/-- An activation that is accepted flies, or others take over before it does. -/
theorem start_lands (groups : List Group) (source : Option Card) {f : Flight}
    (hopen : Flight.Open early f) (hl : l.machine.StartsOnly early)
    (hfree : l.machine.isBusy = false) :
    Lands early 1 f l (exec (start tell r groups source) l).2 := by
  unfold start
  rw [LoggedRun.exec_machine_bind, if_neg (by simp [hfree])]
  dsimp only
  rw [LoggedRun.exec_note_bind, LoggedRun.exec_silent_set_bind]
  generalize hbegan : (⟨{ l.machine with
    activation := l.machine.activation + 1, queue := [], results := {}, current := none,
    request := none, source }, l.deeds ++ [.began groups source l.machine.table]⟩ : Logbook) = began
  have hstarts : began.machine.StartsOnly early := by
    rw [← hbegan]
    exact hl
  have hact : began.machine.activation = l.machine.activation + 1 := by rw [← hbegan]
  have hflies : Flies early 1 f l .opening began := by
    subst hbegan
    exact .of_began hopen rfl rfl
  refine Lands.of_flies (k := 0) hflies ?_
  obtain ⟨hu, hminds⟩ := ht.minds (.started source) began hstarts
  have hopens := fun h => ht.opens h source began hstarts
  rw [exec_bind]
  rcases hdone : exec (tell (.started source)) began with ⟨e | ⟨⟩, u⟩
  · exact (ht.heedful.tells _ began e (congrArg Prod.fst hdone)).elim
  · rw [hdone] at hu hminds hopens
    dsimp only
    rw [LoggedRun.exec_machine_bind]
    -- Early or not, the activation is left alone if it is not overtaken.
    have hcases : Brushes early began u ∨ early = true ∧ TakesOver early began u := by
      cases early with
      | false => exact .inl (hopens rfl)
      | true => exact hminds.imp_right fun h => ⟨rfl, h.2⟩
    rcases hcases with hbrush | ⟨hearly, htake⟩
    · rw [if_pos (hbrush.activation_eq.trans hact)]
      exact .of_flies_zero (hbrush.flies .opening) (expand_lands ht groups source _ hu)
    · -- The others have numbers of their own, by which the frame of this one knows of them.
      have hlt := htake.activation_lt
      rw [hact] at hlt
      rw [if_neg (Nat.ne_of_gt hlt), exec_outcome]
      exact ⟨hu, htake.flies .opening (.inr ⟨rfl, hearly⟩)⟩

omit ht in
theorem flight_of_awaiting {m : Machine} (h : m.phase = .awaitingTarget) : m.flight = .flying :=
  Machine.flight_of_busy (Machine.isBusy_of_awaiting h)

/-- A selection lets the effect act that waits. If it is refused nothing is done. -/
theorem resume_lands (ids : List String) (hl : l.machine.StartsOnly early) :
    Lands early 0 l.machine.flight l (exec (resume tell r ids) l).2 := by
  have hsame : Lands early 0 l.machine.flight l l := ⟨hl, .refl⟩
  unfold resume
  rw [LoggedRun.exec_machine_bind]
  rcases l.machine.request with _ | q
  · exact hsame
  · dsimp only
    rw [exec_ite]
    split
    · exact hsame
    · next hphase =>
      rw [not_not] at hphase
      have hbusy := Machine.isBusy_of_awaiting hphase
      rcases Engine.selected q ids with e | targets
      · exact hsame
      · rw [flight_of_awaiting hphase]
        exact lands_bind (silent_aloft fun _ hbusy => ⟨rfl, hbusy, rfl⟩) hl hbusy
          fun _ _ hl hbusy => lands_bind current_aloft hl hbusy fun p _ hl hbusy =>
            lands_bind (dispatch_aloft ht p _) hl hbusy fun _ _ => proceed_lands ht _

/-- Cancelling the request passes its effect over. Where there is none nothing is done. -/
theorem cancel_lands (hl : l.machine.StartsOnly early) :
    Lands early 0 l.machine.flight l (exec (cancel tell r) l).2 := by
  unfold cancel
  rw [LoggedRun.exec_machine_bind, exec_ite]
  split
  · rw [exec_outcome]
    exact ⟨hl, .refl⟩
  · next hphase =>
    rw [not_not] at hphase
    have hbusy := Machine.isBusy_of_awaiting hphase
    rw [flight_of_awaiting hphase]
    exact lands_bind (silent_aloft fun _ hbusy => ⟨rfl, hbusy, rfl⟩) hl hbusy fun _ _ hl hbusy =>
      lands_bind current_aloft hl hbusy fun p _ hl hbusy =>
        lands_bind (complete_aloft ht rfl rfl _ _ _) hl hbusy fun _ _ => proceed_lands ht _

/-! ### Notifications -/

omit ht in
/-- A host may mean the source of an activation by its id, which is nothing to the one in flight. -/
theorem exec_perform_start (tell : Tell) (groups : List Group) (source : Option String)
    (l : Logbook) : ∃ card u, Brushes early l u ∧ u.machine.observers = l.machine.observers ∧
      exec (perform tell r (.start groups source)) l =
        exec (Reply.outcome <$> start tell r groups card) u := by
  cases source with
  | none => exact ⟨none, l, Std.Refl.refl l, rfl, by rw [perform, pure_bind]⟩
  | some id =>
    refine ⟨some (l.machine.table.game.cardNamed id).1,
      { l with machine := { l.machine with
        table := { l.machine.table with game := (l.machine.table.game.cardNamed id).2 } } },
      ?_, rfl, ?_⟩
    · exact Logbook.brushes_of_noted l _ l.machine.observers l.machine.record
    · rw [perform, exec_bind, exec_map, LoggedRun.exec_silent, Run.exec_play,
        Play.exec_makeFromGame]
      rfl

omit ht in
/-- Reporting a call that was refused leaves the activation alone. -/
theorem brushes_of_refused {report : Report} (h : isAccepted report.answer = false) (l : Logbook) :
    Brushes early l
      { l with machine := { l.machine with reports := l.machine.reports ++ [report] } } where
  flies _ := .report (by rw [h]; exact .refl)
  phase_eq := rfl
  activation_eq := rfl

omit ht in
/-- A call that starts an activation is accepted if all that may go wrong with it is a fault. -/
theorem isAccepted_of_isFault {answer : Except EngineError α}
    (h : ∀ e, answer = .error e → e.IsFault) : isAccepted answer = true := by
  unfold isAccepted
  split
  · next phase => exact absurd rfl (h (.inProgress phase) rfl)
  · rfl

/-- A call that starts an activation where none is in flight is accepted. -/
theorem isAccepted_start (groups : List Group) (source : Option Card)
    (hfree : l.machine.isBusy = false) :
    isAccepted (exec (start tell r groups source) l).1 = true := by
  refine isAccepted_of_isFault fun e he => ?_
  have herased := congrArg Prod.fst (start_erases (r := r) ht.erases groups source l)
  rw [he] at herased
  exact Engine.isFault_of_exec_start ht.tells (fun h => Bool.eq_false_iff.mp hfree h.1) herased

omit ht in
/-- If something is in flight, another activation is refused. -/
theorem exec_start_refused (tell : Tell) (hreject : r.config.policy = .reject)
    (hbusy : l.machine.isBusy = true) (groups : List Group) (source : Option Card) :
    exec (start tell r groups source) l = (.error (.inProgress l.machine.phase), l) := by
  unfold start
  rw [LoggedRun.exec_machine_bind, if_pos (by simp [hbusy, hreject])]
  rfl

/-- What an order does that starts an activation. If something is in flight it is refused. -/
theorem carryOut_minds (hreject : r.config.policy = .reject) {o : StandingOrder}
    (ho : ∃ groups source, o.command = .start groups source) :
    Keeps (Minds early) (carryOut tell r o) := by
  obtain ⟨groups, source, ho⟩ := ho
  intro l
  obtain ⟨card, u, hbrush, hobservers, hperform⟩ := @exec_perform_start early r tell groups source l
  have hfirst : Minds early l u := fun hl =>
    ⟨fun o ho => hl o (hobservers ▸ ho), .inl hbrush⟩
  refine IsTrans.trans _ _ _ hfirst fun hu => ?_
  -- The call starts from `u`, and what comes of it is reported.
  rw [← ho, exec_map] at hperform
  obtain ⟨report, hreport, hdone⟩ : ∃ report : Report,
      report.answer = (exec (start tell r groups card) u).1.map Reply.outcome ∧
        (exec (carryOut tell r o) l).2 =
          { (exec (start tell r groups card) u).2 with machine :=
            { (exec (start tell r groups card) u).2.machine with
              reports := (exec (start tell r groups card) u).2.machine.reports ++ [report] } } := by
    refine ⟨⟨o.serial, _, (exec (start tell r groups card) u).2.machine.table.game.boosts⟩, rfl, ?_⟩
    have hcarried : exec (carryOut tell r o) l =
        let done := exec (perform tell r o.command) l
        let m := done.2.machine
        (.ok (), { done.2 with machine := { m with
          reports := m.reports ++ [⟨o.serial, done.1, m.table.game.boosts⟩] } }) := rfl
    rw [hcarried, hperform]
    rfl
  have haccepted : isAccepted report.answer = isAccepted (exec (start tell r groups card) u).1 := by
    rw [hreport]
    rcases (exec (start tell r groups card) u).1 with e | a
    · cases e <;> rfl
    · rfl
  rw [hdone]
  by_cases hbusy : u.machine.isBusy = true
  · rw [exec_start_refused tell hreject hbusy] at haccepted ⊢
    exact ⟨hu, .inl (brushes_of_refused haccepted u)⟩
  · have hfree := Bool.eq_false_iff.mpr hbusy
    rw [isAccepted_start ht groups card hfree] at haccepted
    have hlands := fun f hopen => start_lands (r := r) ht groups card (f := f) hopen hu hfree
    have hover := start_overtakes (r := r) (m := u.machine) (k := u.deeds) ht.heedful groups card
      (by simp [hfree])
    refine ⟨(hlands .free (.inl rfl)).1, .inr ⟨hfree, fun f hopen => .report ?_, hover.1⟩⟩
    rw [if_pos haccepted]
    exact (hlands f hopen).2

theorem tellOne_minds (hreject : r.config.policy = .reject) (e : Event) (index : Nat) :
    Keeps (Minds early) (tellOne tell r e index) := by
  intro l hl
  unfold tellOne
  rw [LoggedRun.exec_machine_bind]
  split
  · exact Std.Refl.refl (r := Minds early) l hl
  · rw [LoggedRun.exec_silent, exec_set]
    exact ⟨hl, .inl (Logbook.brushes_of_noted l _ l.machine.observers _)⟩
  · next o horder =>
    split
    · have ho := hl o (List.mem_of_getElem? horder)
      dsimp only
      rw [LoggedRun.exec_silent_set_bind]
      -- The order counts the event first, which is nothing to the activation.
      let counted : StandingOrder := { o with seen := o.seen + 1 }
      let observers := l.machine.observers.set index (.order counted)
      have hcounted : Minds early l { l with machine := { l.machine with observers } } := by
        refine fun _ => ⟨fun o' ho' => ?_,
          .inl (Logbook.brushes_of_noted l l.machine.table _ l.machine.record)⟩
        rcases List.mem_or_eq_of_mem_set ho' with hold | hnew
        · exact hl o' hold
        · cases hnew
          exact ho
      refine IsTrans.trans (r := Minds early) _ _ _ hcounted ?_ hl
      exact Keeps.ite (carryOut_minds ht hreject ho.1) (.pure _) _
    · exact Std.Refl.refl (r := Minds early) l hl

end Calls

/-- Observers that may not begin anything early only take down that an activation has started. -/
theorem notify_started_noted (depth : Nat) (source : Option Card) (l : Logbook)
    (hl : l.machine.StartsOnly false) :
    ∃ record, (exec (notify r depth (.started source)) l).2 =
      { l with machine := { l.machine with record } } := by
  cases depth with
  | zero =>
    rw [notify, LoggedRun.exec_silent, Engine.notify, exec_modify]
    dsimp only
    split
    · exact ⟨_, rfl⟩
    · exact ⟨l.machine.record, rfl⟩
  | succ depth =>
    rw [notify, LoggedRun.exec_machine_bind]
    generalize List.range l.machine.observers.length = indices
    induction indices generalizing l with
    | nil => exact ⟨l.machine.record, rfl⟩
    | cons index rest ih =>
      -- One observer takes the event down at most, and the others are told after it.
      have hone : ∃ record, exec (tellOne (notify r depth) r (.started source) index) l =
          (.ok (), { l with machine := { l.machine with record } }) := by
        unfold tellOne
        rw [LoggedRun.exec_machine_bind]
        rcases hobserver : l.machine.observers[index]? with _ | _ | o
        · exact ⟨l.machine.record, rfl⟩
        · dsimp only
          rw [LoggedRun.exec_silent, exec_set]
          exact ⟨_, rfl⟩
        · have hmoment : o.moment ≠ (Event.started source).moment :=
            (hl o (List.mem_of_getElem? hobserver)).2 rfl
          exact ⟨l.machine.record, by dsimp only; rw [if_neg hmoment]; rfl⟩
      obtain ⟨record, hone⟩ := hone
      obtain ⟨record', hrest⟩ := ih { l with machine := { l.machine with record } } hl
      refine ⟨record', ?_⟩
      change (exec (tellOne (notify r depth) r (.started source) index >>= fun _ =>
        rest.forM (tellOne (notify r depth) r (.started source))) l).2 = _
      rw [exec_bind, hone]
      exact hrest

/-- Observers are polite if they mind what is in flight. -/
theorem polite_of_minds {depth : Nat} (h : ∀ e, Keeps (Minds early) (notify r depth e)) :
    Polite early r (notify r depth) (Engine.notify r depth) where
  heedful := notify_heedful depth
  erases := notify_erases r depth
  tells := Engine.notify_tells depth
  minds := h
  opens := by
    rintro rfl source l hl
    obtain ⟨record, hdone⟩ := notify_started_noted (r := r) depth source l hl
    rw [hdone]
    exact Logbook.brushes_of_noted l l.machine.table l.machine.observers record

/-- However deep notifications are nested, the observers are polite: the calls that they make tell
theirs with one depth less. -/
theorem polite_notify (hreject : r.config.policy = .reject) (depth : Nat) :
    Polite early r (notify r depth) (Engine.notify r depth) := by
  refine polite_of_minds fun e => ?_
  induction depth generalizing e with
  | zero =>
    -- Nothing is carried out any more at this depth, and the event is taken down at most.
    intro l hl
    rw [notify, LoggedRun.exec_silent, Engine.notify, exec_modify]
    dsimp only
    split
    · exact ⟨hl, .inl (Logbook.brushes_of_noted l _ l.machine.observers _)⟩
    · exact ⟨hl, .inl (Std.Refl.refl l)⟩
  | succ depth ih =>
    rw [notify]
    exact .bind (.of_fixed fun _ => rfl) fun _ =>
      .forM (fun index => tellOne_minds (polite_of_minds ih) hreject e index) _

end Logged

/-! ## Calls of a host -/

namespace Machine

open Logbook (Lands)

variable {early : Bool} {r : Rules}

/-- How many of the calls of a host start activations that are accepted. -/
def begun (r : Rules) : Machine → List HostCall → Nat
  | _, [] => 0
  | m, c :: rest =>
    (match c with
      | .start .. => if isAccepted (m.call r c).1 then 1 else 0
      | .answer _ => 0) + begun r (m.call r c).2 rest

/-- A call of a host lets flights be. -/
theorem logged_lands (hreject : r.config.policy = .reject) {m : Machine} (hm : m.StartsOnly early)
    (c : HostCall) :
    Lands early (m.begun r [c]) m.flight { machine := m } (m.logged r c).2 := by
  have ht : Logged.Polite early r _ _ := Logged.polite_notify hreject m.depth
  rcases c with ⟨groups, source⟩ | ⟨ids⟩ | _
  · by_cases hbusy : m.isBusy = true
    · -- The call is refused, so it does not count either.
      have hdone : m.logged r (.start groups source) = _ :=
        Logged.exec_start_refused (l := { machine := m }) _ hreject hbusy groups source
      simp only [begun, call_eq_logged, hdone]
      exact ⟨hm, .refl⟩
    · have hfree := Bool.eq_false_iff.mpr hbusy
      have haccepted : isAccepted (m.logged r (.start groups source)).1 = true :=
        Logged.isAccepted_start (l := { machine := m }) ht groups source hfree
      simp only [begun, call_eq_logged, haccepted, if_true]
      exact Logged.start_lands (l := { machine := m }) ht groups source
        (.inl (flight_of_free hfree)) hm hfree
  · exact Logged.resume_lands (l := { machine := m }) ht ids hm
  · exact Logged.cancel_lands (l := { machine := m }) ht hm

/-- All calls of a host let flights be. -/
theorem deeds_land (hreject : r.config.policy = .reject) {m : Machine} (hm : m.StartsOnly early)
    (cs : List HostCall) : ∃ reports,
      Flight.run early m.flight (m.deeds r cs) = some (m.afterCalls r cs).flight ∧
        (m.afterCalls r cs).reports = m.reports ++ reports ∧
          (m.deeds r cs).countP (·.isBegan) =
            m.begun r cs + reports.countP (isAccepted ·.answer) := by
  induction cs generalizing m with
  | nil => exact ⟨[], rfl, (List.append_nil _).symm, rfl⟩
  | cons c rest ih =>
    obtain ⟨hstarts, h, reports, hdeeds, hrun, hreports, hcount⟩ := logged_lands hreject hm c
    have hcall : (m.call r c).2 = (m.logged r c).2.machine := by rw [call_eq_logged]
    rw [← hcall] at hstarts hrun hreports
    obtain ⟨reports', hrun', hreports', hcount'⟩ := ih hstarts
    obtain rfl : h = m.deedsOf r c := hdeeds.symm
    -- The flight, the reports and the count go on from where the first call left them.
    refine ⟨reports ++ reports', ?_, ?_, ?_⟩
    · rw [deeds, Flight.run_append, hrun]
      exact hrun'
    · rw [← List.append_assoc, ← hreports]
      exact hreports'
    · rw [deeds, List.countP_append, List.countP_append, hcount, hcount']
      simp only [begun]
      omega

end Machine

/-- Where activations in flight refuse others, a call that starts one while something is in flight
is refused and changes nothing. If observers do no more than start activations, whatever a host
calls, as many activations begin as calls of the host and of the observers were accepted. Each of
these may be overtaken by another one right when it begins, before it has queued an effect, if there
are observers that start one when they are told of it. Else no other one begins until it is
completed, and then all effects that it queued are done with. -/
theorem calls_protect_flights {r : Rules} (hreject : r.config.policy = .reject) {early : Bool}
    {m : Machine} (hm : m.StartsOnly early) (cs : List HostCall) :
    (∀ (tell : Engine.Tell) groups source (u : Machine), u.isBusy = true →
      exec (Engine.start tell r groups source) u = (.error (.inProgress u.phase), u)) ∧
    m.DoesAll r cs (m.deeds r cs) ∧
    ∃ reports, (m.afterCalls r cs).reports = m.reports ++ reports ∧
      (m.deeds r cs).countP (·.isBegan) =
          m.begun r cs + reports.countP (isAccepted ·.answer) ∧
      ∀ before groups source t after,
        m.deeds r cs = before ++ .began groups source t :: after →
          Deed.Fate early (m.afterCalls r cs).isBusy after := by
  refine ⟨fun tell groups source u hbusy => ?_, m.doesAll_deeds cs, ?_⟩
  · exact Engine.exec_start_refused tell hbusy hreject groups source
  · obtain ⟨reports, hrun, hreports, hcount⟩ := Machine.deeds_land hreject hm cs
    refine ⟨reports, hreports, hcount, fun before groups source t after hdeeds => ?_⟩
    rw [hdeeds] at hrun
    exact (Machine.path_of_deeds_eq hdeeds).fate hrun rfl

/-- An observer that starts an activation once an effect was carried out is refused, since the first
one is in flight. -/
theorem one_begins_of_order_at_effect :
    let r : Rules := { config := { policy := .reject } }
    let order : StandingOrder :=
      { moment := .executed, command := .start [Group.always [.gold 1]] none }
    let m : Machine :=
      { table := { game := {}, dice := { twister := { words := #[], used := 0 } } },
        observers := [.order order] }
    let cs : List HostCall := [.start [Group.always [.gold 5, .gold 6]] none]
    (m.deeds r cs).countP (·.isBegan) = 1 ∧
      ∃ report ∈ (m.afterCalls r cs).reports, isAccepted report.answer = false := by
  intro r order m cs
  have hm : m.StartsOnly false := by
    intro o ho
    cases List.mem_singleton.mp ho
    exact ⟨⟨_, _, rfl⟩, fun _ => Moment.noConfusion⟩
  obtain ⟨-, -, reports, hreports, hcount, -⟩ := calls_protect_flights (r := r) rfl hm cs
  have hnone : (m.afterCalls r cs).reports.countP (isAccepted ·.answer) = 0 := by decide +kernel
  have hbegun : m.begun r cs = 1 := by decide +kernel
  have hsame : (m.afterCalls r cs).reports = reports := hreports
  rw [hbegun, ← hsame, hnone] at hcount
  exact ⟨hcount, by decide +kernel⟩

/-- An observer that starts an activation when it is told of another one is not refused, and the
other one does nothing, though it was accepted. -/
theorem not_protected_of_order_at_start :
    let r : Rules := { config := { policy := .reject } }
    let order : StandingOrder :=
      { moment := .started, command := .start [Group.always [.gold 1]] none }
    let m : Machine :=
      { table := { game := {}, dice := { twister := { words := #[], used := 0 } } },
        observers := [.order order] }
    let done := m.call r (.start [Group.always [.gold 5]] none)
    isAccepted done.1 = true ∧
      ¬ (∀ report ∈ done.2.reports, isAccepted report.answer = false) ∧
      done.2.isBusy = false ∧ done.2.table.game.gold = 1 := by
  decide +kernel

end Treasury
