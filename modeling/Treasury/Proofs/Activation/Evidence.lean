import Treasury.Proofs.Activation.Reentry

/-!
# What is seen of a call

A log says more than can be seen of a call, but it has to agree with all that can be seen: with what
a recorder takes down, with the answer to the call and the reports of observers, and with the groups
that were to be started.

* `Logbook.Faithful` is that agreement while a call is being made: an event may still have to be
  told, and an outcome may still have to be answered.
* `Logbook.Stays` and `Logged.Returns` say how the parts of a call keep it, and
  `Logged.notify_hears` closes the circle for the calls of observers.
* `Machine.Does` is what is known of the log of a call, and `Machine.does_deedsOf` says so.
* `Machine.DoesAll` and `Machine.doesAll_deeds` are the same for the calls of a host.
-/

namespace Treasury

/-- A source is the card that an id means, if there is an id, on a table as it is once that card was
named. -/
def Table.Means (t : Table) : Option String → Option Card → Prop
  | none, source => source = none
  | some id, source => ∃ g : GameState, t.game = (g.cardNamed id).2 ∧ source = (g.cardNamed id).1

namespace Machine

/-- The first observer of the machine is its only recorder. -/
def Watched (m : Machine) : Prop :=
  ∃ orders : List StandingOrder, m.observers = .recorder :: orders.map .order

/-- The observers and what they keep are as they were. -/
def Unseen (m m' : Machine) : Prop :=
  m'.observers = m.observers ∧ m'.record = m.record ∧ m'.reports = m.reports

/-- A recorder stays where it is if an order is replaced by another one. -/
theorem Watched.set {m : Machine} (h : m.Watched) {index : Nat} {o o' : StandingOrder}
    (ho : m.observers[index]? = some (.order o)) :
    Watched { m with observers := m.observers.set index (.order o') } := by
  obtain ⟨orders, hobservers⟩ := h
  cases index with
  | zero =>
    rw [hobservers] at ho
    cases ho
  | succ index =>
    refine ⟨orders.set index o', ?_⟩
    change m.observers.set (index + 1) (.order o') = _
    rw [hobservers, List.set_cons_succ, List.map_set]

/-- An activation of some groups from a source may begin on a table in a call: the call is to start
it, or an observer is, which means the source by its id. -/
def MayStart (m : Machine) (c : HostCall) (groups : List Group) (source : Option Card)
    (t : Table) : Prop :=
  c = .start groups source ∨
    ∃ o id, .order o ∈ m.observers ∧ o.command = .start groups id ∧ t.Means id source

end Machine

namespace Logbook

/-- A logbook agrees with what is seen of a call that started from a machine, if the given events
are told next and the given outcomes are answered. -/
structure Faithful (m : Machine) (c : HostCall) (owed : Outcome → Prop) (untold : List Event)
    (l : Logbook) : Prop where
  /-- Observers have the commands that they had. -/
  orders : ∀ o, .order o ∈ l.machine.observers →
    ∃ o', .order o' ∈ m.observers ∧ o'.command = o.command
  /-- The recorder stays where it is. -/
  watched : m.Watched → l.machine.Watched
  /-- What is done is taken down, in this order. -/
  record_eq : m.Watched →
    l.machine.record ++ untold = m.record ++ l.deeds.filterMap (·.event?)
  /-- What begins was to be started. -/
  begun : ∀ groups source t, .began groups source t ∈ l.deeds → m.MayStart c groups source t
  /-- What completes is answered or reported. -/
  returned : ∃ reports, l.machine.reports = m.reports ++ reports ∧
    ∀ o t, .completed o t ∈ l.deeds → owed o ∨
      ∃ report ∈ reports, report.answer = .ok (.outcome o)

/-- A logbook that agrees with what is seen still does. -/
def Stays (m : Machine) (c : HostCall) (l l' : Logbook) : Prop :=
  ∀ owed, l.Faithful m c owed [] → l'.Faithful m c owed []

variable {m m' : Machine} {c : HostCall} {owed owed' : Outcome → Prop} {untold : List Event}
  {l l' : Logbook}

instance : IsPreorder Logbook (Stays m c) where
  refl _ _ h := h
  trans _ _ _ h k owed hl := k owed (h owed hl)

/-- Before anything is done, there is nothing to agree with. -/
theorem faithful_refl (m : Machine) (c : HostCall) :
    Faithful m c (fun _ => False) [] { machine := m } where
  orders o ho := ⟨o, ho, rfl⟩
  watched h := h
  record_eq _ := rfl
  begun _ _ _ h := nomatch h
  returned := ⟨[], (List.append_nil _).symm, fun _ _ h => nomatch h⟩

/-- More outcomes may be owed. -/
theorem Faithful.mono (h : l.Faithful m c owed untold) (howed : ∀ o, owed o → owed' o) :
    l.Faithful m c owed' untold where
  orders := h.orders
  watched := h.watched
  record_eq := h.record_eq
  begun := h.begun
  returned := by
    obtain ⟨reports, hreports, hall⟩ := h.returned
    exact ⟨reports, hreports, fun o t ho => (hall o t ho).imp_left (howed o)⟩

/-- What changes beside the observers and what they keep is not seen. -/
theorem Faithful.aside (h : l.Faithful m c owed untold) (hunseen : l.machine.Unseen m') :
    Faithful m c owed untold { l with machine := m' } := by
  obtain ⟨hobservers, hrecord, hreports⟩ := hunseen
  refine ⟨?_, fun hm => ?_, fun hm => ?_, h.begun, ?_⟩
  · rw [hobservers]
    exact h.orders
  · rw [Machine.Watched, hobservers]
    exact h.watched hm
  · rw [hrecord]
    exact h.record_eq hm
  · rw [hreports]
    exact h.returned

/-- A deed is logged that the observers are told of next, if they are told of it at all. -/
theorem Faithful.deed {d : Deed} (h : l.Faithful m c owed []) (hunseen : l.machine.Unseen m')
    (hevent : d.event?.toList = untold)
    (hbegan : ∀ groups source t, d = .began groups source t → m.MayStart c groups source t)
    (hcompleted : ∀ o t, d = .completed o t → owed o) :
    Faithful m c owed untold ⟨m', l.deeds ++ [d]⟩ where
  orders := (h.aside hunseen).orders
  watched := (h.aside hunseen).watched
  record_eq hm := by
    have hsame := (h.aside hunseen).record_eq hm
    rw [List.append_nil] at hsame
    have hone : [d].filterMap (·.event?) = untold := by
      rw [← hevent]
      cases hd : d.event? <;> simp [hd]
    rw [List.filterMap_append, ← List.append_assoc, ← hsame, hone]
  begun groups source t hd := by
    rcases List.mem_append.mp hd with hd | hd
    · exact h.begun groups source t hd
    · exact hbegan groups source t (List.mem_singleton.mp hd).symm
  returned := by
    obtain ⟨reports, hreports, hall⟩ := (h.aside hunseen).returned
    refine ⟨reports, hreports, fun o t hd => ?_⟩
    rcases List.mem_append.mp hd with hd | hd
    · exact hall o t hd
    · exact .inl (hcompleted o t (List.mem_singleton.mp hd).symm)

/-- What is neither a beginning nor a completion needs no more than to be told. -/
theorem Faithful.plain {d : Deed} (h : l.Faithful m c owed []) (hunseen : l.machine.Unseen m')
    (hevent : d.event?.toList = untold) (hbegan : d.isBegan = false)
    (hcompleted : d.isCompleted = false) :
    Faithful m c owed untold ⟨m', l.deeds ++ [d]⟩ := by
  refine h.deed hunseen hevent (fun groups source t hd => ?_) fun o t hd => ?_
  · subst hd
    cases hbegan
  · subst hd
    cases hcompleted

/-- An event is taken down. -/
theorem Faithful.told {e : Event} (h : l.Faithful m c owed [e]) :
    Faithful m c owed []
      { l with machine := { l.machine with record := l.machine.record ++ [e] } } where
  orders := h.orders
  watched := h.watched
  record_eq hm := by
    rw [List.append_nil]
    exact h.record_eq hm
  begun := h.begun
  returned := h.returned

/-- Where nothing is watched, an event need not be taken down. -/
theorem Faithful.unwatched (h : l.Faithful m c owed untold) (hm : ¬ m.Watched)
    (record : List Event) (untold' : List Event) :
    Faithful m c owed untold' { l with machine := { l.machine with record } } where
  orders := h.orders
  watched hwatched := absurd hwatched hm
  record_eq hwatched := absurd hwatched hm
  begun := h.begun
  returned := h.returned

/-- An order counts an event. -/
theorem Faithful.counted (h : l.Faithful m c owed untold) {index : Nat} {o o' : StandingOrder}
    (ho : l.machine.observers[index]? = some (.order o)) (hcommand : o'.command = o.command) :
    let observers := l.machine.observers.set index (.order o')
    Faithful m c owed untold { l with machine := { l.machine with observers } } where
  orders o'' ho'' := by
    rcases List.mem_or_eq_of_mem_set ho'' with hold | hnew
    · exact h.orders o'' hold
    · cases hnew
      obtain ⟨first, hfirst, hsame⟩ := h.orders o (List.mem_of_getElem? ho)
      exact ⟨first, hfirst, hsame.trans hcommand.symm⟩
  watched hm := (h.watched hm).set ho
  record_eq := h.record_eq
  begun := h.begun
  returned := h.returned

/-- An outcome that is owed is reported. -/
theorem Faithful.reported {report : Report}
    (h : l.Faithful m c (fun o => owed o ∨ report.answer = .ok (.outcome o)) []) :
    Faithful m c owed []
      { l with machine := { l.machine with reports := l.machine.reports ++ [report] } } where
  orders := h.orders
  watched := h.watched
  record_eq := h.record_eq
  begun := h.begun
  returned := by
    obtain ⟨reports, hreports, hall⟩ := h.returned
    refine ⟨reports ++ [report], by rw [← List.append_assoc, ← hreports], fun o t ho => ?_⟩
    rcases hall o t ho with (howed | hanswer) | ⟨old, hold, hanswer⟩
    · exact .inl howed
    · exact .inr ⟨report, List.mem_append_right _ (List.mem_singleton_self _), hanswer⟩
    · exact .inr ⟨old, List.mem_append_left _ hold, hanswer⟩

end Logbook

/-! ## Parts of a call -/

namespace Logged

open Logbook (Faithful Stays)

variable {α β : Type} {r : Rules} {m : Machine} {c : HostCall} {tell : Tell} {p : Pending}

/-- Where an action has an answer, that is all that is owed besides what was. -/
def Returns (m : Machine) (c : HostCall) (answer : Outcome → α) (x : LoggedRun α) : Prop :=
  ∀ owed l, l.Faithful m c owed [] →
    (exec x l).2.Faithful m c (fun o => owed o ∨ (exec x l).1 = .ok (answer o)) []

/-- Telling the observers does not fail, and the event that they are told of is taken down. -/
structure Hears (m : Machine) (c : HostCall) (tell : Tell) : Prop where
  tells : ∀ e, Throws (fun _ => False) (tell e)
  hears : ∀ e owed l, l.Faithful m c owed [e] → (exec (tell e) l).2.Faithful m c owed []

namespace Returns

variable {answer : Outcome → α} {x : LoggedRun α}

theorem of_stays (h : Keeps (Stays m c) x) : Returns m c answer x :=
  fun owed l hl => (h l owed hl).mono fun _ ho => .inl ho

theorem bind {y : LoggedRun β} {f : β → LoggedRun α} (hy : Keeps (Stays m c) y)
    (hf : ∀ b, Returns m c answer (f b)) : Returns m c answer (y >>= f) := by
  intro owed l hl
  have hfirst := hy l owed hl
  rw [exec_bind]
  rcases hdone : exec y l with ⟨e | b, l'⟩ <;> rw [hdone] at hfirst
  · exact hfirst.mono fun _ ho => .inl ho
  · exact hf b owed l' hfirst

theorem ite {q : Prop} [Decidable q] {y : LoggedRun α} (hx : Returns m c answer x)
    (hy : Returns m c answer y) : Returns m c answer (if q then x else y) := by
  split
  · exact hx
  · exact hy

end Returns

/-- What is answered to a command is the outcome. -/
theorem replied {x : LoggedRun Outcome} {owed : Outcome → Prop} {l : Logbook}
    (h : (exec x l).2.Faithful m c (fun o => owed o ∨ (exec x l).1 = .ok o) []) :
    let done := exec (Reply.outcome <$> x) l
    done.2.Faithful m c (fun o => owed o ∨ done.1 = .ok (.outcome o)) [] := by
  dsimp only
  rw [exec_map]
  refine h.mono fun o ho => ho.imp_right fun ho => ?_
  rw [ho]
  rfl

/-- An action that is no deed is not seen if it leaves the observers and what they keep. -/
theorem silent_stays {x : Run α} (h : Keeps Machine.Unseen x) :
    Keeps (Stays m c) (LoggedRun.silent x) := by
  intro l owed hl
  rw [LoggedRun.exec_silent]
  exact hl.aside (h l.machine)

theorem machine_stays : Keeps (Stays m c) LoggedRun.machine := .of_fixed fun _ => rfl

theorem play_stays (action : Play α) : Keeps (Stays m c) (LoggedRun.silent (Run.play action)) :=
  silent_stays fun u => by
    rw [Run.exec_play]
    exact ⟨rfl, rfl, rfl⟩

theorem outcome_stays : Keeps (Stays m c) outcome := .of_fixed fun l => by rw [exec_outcome]

theorem current_stays : Keeps (Stays m c) (LoggedRun.silent Engine.current) :=
  silent_stays fun u => by
    rw [Engine.exec_current]
    exact ⟨rfl, rfl, rfl⟩

/-- What is queued is logged, but nobody is told of it. -/
theorem expand_stays (source : Option Card) (groups : List Group) :
    Keeps (Stays m c) (expand r source groups) := by
  intro l owed hl
  obtain ⟨t, entries, -, hstate, -⟩ := Engine.expand_queues (r := r) source groups l.machine
  rw [expand, LoggedRun.exec_logging, hstate]
  exact hl.plain (by exact ⟨rfl, rfl, rfl⟩) (by rfl) (by rfl) (by rfl)

section Calls

variable (ht : Hears m c tell)

include ht

/-- Observers are told, and then the call goes on. -/
theorem told_bind {answer : Outcome → α} {x : LoggedRun α} (hx : Returns m c answer x) {e : Event}
    {owed : Outcome → Prop} {l : Logbook} (hl : l.Faithful m c owed [e]) :
    let done := exec (tell e >>= fun _ => x) l
    done.2.Faithful m c (fun o => owed o ∨ done.1 = .ok (answer o)) [] := by
  have htold := ht.hears e owed l hl
  dsimp only
  rw [exec_bind]
  rcases hdone : exec (tell e) l with ⟨err | ⟨⟩, l'⟩ <;> rw [hdone] at htold
  · exact htold.mono fun _ ho => .inl ho
  · exact hx owed l' htold

/-- Observers are told of an outcome that is answered then. -/
theorem told_pure {e : Event} {owed : Outcome → Prop} {o : Outcome} {l : Logbook}
    (hl : l.Faithful m c (fun o' => owed o' ∨ o' = o) [e]) :
    let done := exec (tell e >>= fun _ => pure o) l
    done.2.Faithful m c (fun o' => owed o' ∨ done.1 = .ok o') [] := by
  have htold := ht.hears e _ l hl
  have htells := ht.tells e l
  dsimp only
  rw [exec_bind]
  rcases hdone : exec (tell e) l with ⟨err | ⟨⟩, l'⟩ <;> rw [hdone] at htold htells
  · exact (htells err rfl).elim
  · refine htold.mono fun o' ho => ho.imp_right fun ho => ?_
    rw [ho]
    rfl

/-- An effect is done with, and the observers are told so. -/
theorem complete_stays {d : Deed} {result : EffectResult} {magnitude : Int}
    (hevent : d.event? = some (.executed p.effect.kind magnitude result))
    (hbegan : d.isBegan = false) (hcompleted : d.isCompleted = false) :
    Keeps (Stays m c) (complete tell d p result magnitude) := by
  intro l owed hl
  rw [show l = ⟨l.machine, l.deeds⟩ from rfl, exec_complete]
  refine ht.hears _ owed _ (hl.plain ⟨rfl, rfl, rfl⟩ ?_ hbegan hcompleted)
  rw [hevent]
  rfl

theorem dispatch_stays (x : Handover) : Keeps (Stays m c) (dispatch tell r p x) := by
  intro l owed hl
  rw [show l = ⟨l.machine, l.deeds⟩ from rfl, exec_dispatch]
  rcases exec (p.magnitude r x.targets l.machine.results) l.machine.table with ⟨f | magnitude, t⟩
  · exact hl.plain (by exact ⟨rfl, rfl, rfl⟩) (by rfl) (by rfl) (by rfl)
  · exact complete_stays ht rfl rfl rfl _ owed (hl.aside ⟨rfl, rfl, rfl⟩)

theorem work_stays : Keeps (Stays m c) (work tell r p) := by
  refine .ite (.bind machine_stays fun u => ?_) (.bind machine_stays fun u => ?_)
  · exact .ite (.bind (complete_stays ht rfl rfl rfl) fun _ => .pure _)
      (.ite (.bind (dispatch_stays ht _) fun _ => .pure _) (.pure _))
  · exact .bind (silent_stays fun _ => ⟨rfl, rfl, rfl⟩) fun _ => .bind (play_stays _) fun _ =>
      .bind (dispatch_stays ht _) fun _ => .pure _

theorem suspend_returns (q : TargetRequest) : Returns m c id (suspend tell p q) := by
  intro owed l hl
  unfold suspend
  rw [LoggedRun.exec_silent_modify_bind, LoggedRun.exec_note_bind]
  exact told_bind ht (.of_stays outcome_stays)
    (hl.plain (by exact ⟨rfl, rfl, rfl⟩) (by rfl) (by rfl) (by rfl))

/-- What completes is told, and is answered in the end. -/
theorem finish_returns : Returns m c id (finish tell) := by
  intro owed l hl
  unfold finish
  rw [LoggedRun.exec_silent_modify_bind, LoggedRun.exec_machine_bind, LoggedRun.exec_note_bind,
    LoggedRun.exec_silent_set_bind]
  let ended : Machine := { l.machine with phase := .completed }
  have hended : Faithful m c owed [] { l with machine := ended } := hl.aside ⟨rfl, rfl, rfl⟩
  have howed : Faithful m c (fun o => owed o ∨ o = ended.outcome) [] { l with machine := ended } :=
    hended.mono fun _ => .inl
  refine told_pure ht (howed.deed (by exact ⟨rfl, rfl, rfl⟩) (by rfl) (fun _ _ _ h => nomatch h)
    fun o t ho => .inr ?_)
  exact (Deed.completed.inj ho).1.symm

theorem drain_returns (activation : Nat) (queue : List Pending) :
    Returns m c id (drain tell r activation queue) := by
  induction queue with
  | nil => exact finish_returns ht
  | cons p rest ih =>
    refine .bind (silent_stays fun _ => ⟨rfl, rfl, rfl⟩) fun _ =>
      .bind (work_stays ht) fun request => ?_
    cases request with
    | none => exact .bind machine_stays fun _ => .ite ih (.of_stays outcome_stays)
    | some q => exact suspend_returns ht q

theorem proceed_returns (activation : Nat) : Returns m c id (proceed tell r activation) :=
  .bind machine_stays fun _ => .ite (drain_returns ht _ _) (.of_stays outcome_stays)

/-- An activation that may begin where the logbook is begins there, and its outcome is answered. -/
theorem start_returns {groups : List Group} {source : Option Card} {owed : Outcome → Prop}
    {l : Logbook} (hl : l.Faithful m c owed [])
    (hstart : m.MayStart c groups source l.machine.table) :
    let done := exec (start tell r groups source) l
    done.2.Faithful m c (fun o => owed o ∨ done.1 = .ok o) [] := by
  dsimp only
  unfold start
  rw [LoggedRun.exec_machine_bind]
  split
  · exact hl.mono fun _ ho => .inl ho
  · dsimp only
    rw [LoggedRun.exec_note_bind, LoggedRun.exec_silent_set_bind]
    refine told_bind ht (.bind machine_stays fun _ => .ite ?_ (.of_stays outcome_stays))
      (hl.deed (by exact ⟨rfl, rfl, rfl⟩) (by rfl) (fun groups' source' t hd => ?_)
        fun _ _ h => nomatch h)
    · exact .bind (silent_stays fun _ => ⟨rfl, rfl, rfl⟩) fun _ =>
        .bind (expand_stays source groups) fun _ => proceed_returns ht _
    · cases hd
      exact hstart

theorem resume_returns (ids : List String) : Returns m c id (resume tell r ids) := by
  refine .bind machine_stays fun u => ?_
  rcases u.request with _ | q
  · exact .of_stays (.throw _)
  · refine .ite (.of_stays (.throw _)) ?_
    rcases Engine.selected q ids with e | targets
    · exact .of_stays (.throw _)
    · exact .bind (silent_stays fun _ => ⟨rfl, rfl, rfl⟩) fun _ => .bind current_stays fun p =>
        .bind (dispatch_stays ht _) fun _ => proceed_returns ht _

theorem cancel_returns : Returns m c id (cancel tell r) :=
  .bind machine_stays fun _ => .ite (.of_stays outcome_stays)
    (.bind (silent_stays fun _ => ⟨rfl, rfl, rfl⟩) fun _ => .bind current_stays fun _ =>
      .bind (complete_stays ht rfl rfl rfl) fun _ => proceed_returns ht _)

theorem make_returns : Returns m c id (make tell r c) := by
  rcases c with ⟨groups, source⟩ | ⟨ids⟩ | _
  · exact fun owed l hl => start_returns ht hl (.inl rfl)
  · exact resume_returns ht ids
  · exact cancel_returns ht

/-- A command may name the source of an activation, which makes a card if there is none. -/
theorem perform_returns {command : Command}
    (hcommand : ∀ groups id source t, command = .start groups id → t.Means id source →
      m.MayStart c groups source t) :
    Returns m c Reply.outcome (perform tell r command) := by
  cases command with
  | start groups id =>
    intro owed l hl
    cases id with
    | none =>
      rw [perform, pure_bind]
      exact replied (start_returns ht hl (hcommand _ _ _ _ rfl rfl))
    | some id =>
      rw [perform, exec_bind, exec_map, LoggedRun.exec_silent, Run.exec_play,
        Play.exec_makeFromGame]
      -- The card is named before the start, so the activation begins on the table after that.
      let g := l.machine.table.game
      let named := { l.machine with table := { l.machine.table with game := (g.cardNamed id).2 } }
      have hnamed : Faithful m c owed [] { l with machine := named } := hl.aside ⟨rfl, rfl, rfl⟩
      exact replied (start_returns ht hnamed (hcommand _ _ _ _ rfl ⟨g, rfl, rfl⟩))
  | resume ids =>
    rw [perform]
    exact fun owed l hl => replied (resume_returns ht ids owed l hl)
  | cancel =>
    rw [perform]
    exact fun owed l hl => replied (cancel_returns ht owed l hl)
  | preview => exact .of_stays (.of_fixed fun _ => rfl)

/-- What an order does is reported. -/
theorem carryOut_stays {o o' : StandingOrder} (ho : .order o' ∈ m.observers)
    (hcommand : o'.command = o.command) : Keeps (Stays m c) (carryOut tell r o) := by
  intro l owed hl
  have hdone := perform_returns (r := r) ht
    (fun _ id _ _ hstart hmeans => .inr ⟨o', id, ho, hcommand.trans hstart, hmeans⟩) owed l hl
  exact hdone.reported

/-- An observer that is no recorder, or one that is not watched, changes nothing that is seen. -/
theorem tellOne_stays (e : Event) {index : Nat} (hindex : m.Watched → 1 ≤ index) :
    Keeps (Stays m c) (tellOne tell r e index) := by
  intro l owed hl
  unfold tellOne
  rw [LoggedRun.exec_machine_bind]
  split
  · exact hl
  · next hrecorder =>
    rw [LoggedRun.exec_silent, exec_set]
    refine hl.unwatched (fun hm => ?_) _ _
    -- Behind the first observer of a machine that is watched there are only orders.
    obtain ⟨orders, hobservers⟩ := hl.watched hm
    obtain ⟨k, rfl⟩ := Nat.exists_eq_add_of_le' (hindex hm)
    rw [hobservers, List.getElem?_cons_succ, List.getElem?_map] at hrecorder
    cases horder : orders[k]? <;> simp [horder] at hrecorder
  · next o ho =>
    obtain ⟨o', ho', hcommand⟩ := hl.orders o (List.mem_of_getElem? ho)
    have hcounted := hl.counted ho
      (show ({ o with seen := o.seen + 1 } : StandingOrder).command = o.command from rfl)
    split
    · dsimp only
      rw [LoggedRun.exec_silent_set_bind]
      split
      · exact carryOut_stays ht ho' hcommand _ owed hcounted
      · exact hcounted
    · exact hl

end Calls

/-- However deep notifications are nested, the recorder takes down what is told. -/
theorem notify_hears (m : Machine) (c : HostCall) (r : Rules) (depth : Nat) :
    Hears m c (notify r depth) where
  tells := notify_tells r depth
  hears := by
    induction depth with
    | zero =>
      intro e owed l hl
      rw [notify, LoggedRun.exec_silent, Engine.notify, exec_modify]
      dsimp only
      by_cases hm : m.Watched
      · obtain ⟨orders, hobservers⟩ := hl.watched hm
        rw [if_pos (by rw [hobservers]; rfl)]
        exact hl.told
      · split
        · exact hl.unwatched hm _ _
        · exact hl.unwatched hm l.machine.record _
    | succ depth ih =>
      intro e owed l hl
      have hdepth : Hears m c (notify r depth) := ⟨notify_tells r depth, ih⟩
      rw [notify, LoggedRun.exec_machine_bind]
      by_cases hm : m.Watched
      · -- The recorder is told first, and nobody else takes anything down.
        obtain ⟨orders, hobservers⟩ := hl.watched hm
        rw [hobservers, List.length_cons, List.range_succ_eq_map, List.forM_eq_forM,
          List.forM_cons, exec_bind]
        let taken := { l.machine with record := l.machine.record ++ [e] }
        have hfirst : exec (tellOne (notify r depth) r e 0) l =
            (.ok (), { l with machine := taken }) := by
          have hzero : l.machine.observers[0]? = some .recorder := by rw [hobservers]; rfl
          unfold tellOne
          rw [LoggedRun.exec_machine_bind, hzero]
          dsimp only
          rw [LoggedRun.exec_silent, exec_set]
        rw [hfirst, List.forM_map]
        exact Keeps.forM (fun k => tellOne_stays hdepth e fun _ => Nat.le_add_left 1 k) _ _ owed
          hl.told
      · exact Keeps.forM (fun index => tellOne_stays hdepth e fun h => absurd h hm) _ _ owed
          (hl.unwatched hm l.machine.record _)

end Logged

/-! ## Calls of a host -/

namespace Machine

variable {r : Rules}

/-- What is known of the deeds of a call. -/
structure Does (r : Rules) (m : Machine) (c : HostCall) (h : List Deed) : Prop where
  /-- They lead from the machine before the call to the machine after it. -/
  path : Scene.Path r ⟨m, none⟩ h ⟨(m.call r c).2, none⟩
  /-- A call that is to start an activation does so first, unless it is refused. -/
  begins : ∀ groups source, c = .start groups source →
    if m.isBusy = true ∧ r.config.policy = .reject then h = []
    else ∃ rest, h = .began groups source m.table :: rest
  /-- What begins was to be started, by the call or by an observer. -/
  begun : ∀ groups source t, .began groups source t ∈ h → m.MayStart c groups source t
  /-- What is done is taken down, in this order. -/
  record_eq : m.Watched → (m.call r c).2.record = m.record ++ h.filterMap (·.event?)
  /-- The outcome of what completes is the answer to the call, or to the call of an observer. -/
  returned : ∃ reports, (m.call r c).2.reports = m.reports ++ reports ∧
    ∀ o t, .completed o t ∈ h → (m.call r c).1 = .ok o ∨
      ∃ report ∈ reports, report.answer = .ok (.outcome o)

/-- What is known of the deeds of calls: they are those of the calls, one after another. -/
def DoesAll (r : Rules) : Machine → List HostCall → List Deed → Prop
  | _, [], h => h = []
  | m, c :: rest, h =>
    ∃ first more, h = first ++ more ∧ m.Does r c first ∧ DoesAll r (m.call r c).2 rest more

/-- The log of a call is true. -/
theorem does_deedsOf (m : Machine) (c : HostCall) : m.Does r c (m.deedsOf r c) := by
  have hfaithful := Logged.make_returns (r := r) (Logged.notify_hears m c r m.depth) _
    { machine := m } (Logbook.faithful_refl m c)
  rw [← logged] at hfaithful
  refine ⟨m.path_deedsOf c, ?_, hfaithful.begun, fun hm => ?_, ?_⟩
  · rintro groups source rfl
    have hbusy : (m.isBusy && r.config.policy = .reject) = true ↔
        m.isBusy = true ∧ r.config.policy = .reject := by
      rw [Bool.and_eq_true, decide_eq_true_iff]
    split
    · -- A call that is refused comes before anything that is logged.
      next h =>
      unfold deedsOf logged Logged.make Logged.start
      rw [LoggedRun.exec_machine_bind, if_pos (hbusy.mpr h)]
      rfl
    · next h =>
      obtain ⟨rest, hdeeds, -⟩ := Logged.start_goes (r := r) (m := m) (k := [])
        (Logged.notify_heedful m.depth) groups source fun hb => h (hbusy.mp hb)
      exact ⟨rest, hdeeds⟩
  · have hrecord := hfaithful.record_eq hm
    rw [List.append_nil] at hrecord
    rw [call_eq_logged]
    exact hrecord
  · obtain ⟨reports, hreports, hall⟩ := hfaithful.returned
    rw [call_eq_logged]
    exact ⟨reports, hreports, fun o t ho => (hall o t ho).imp_left fun h => h.resolve_left id⟩

/-- So are the logs of calls, one after another. -/
theorem doesAll_deeds (cs : List HostCall) (m : Machine) : m.DoesAll r cs (m.deeds r cs) := by
  induction cs generalizing m with
  | nil => rfl
  | cons c rest ih => exact ⟨m.deedsOf r c, _, rfl, m.does_deedsOf c, ih (m.call r c).2⟩

/-- The deeds of calls lead from the machine before them to the machine after them. -/
theorem DoesAll.path {cs : List HostCall} {m : Machine} {h : List Deed} (hall : m.DoesAll r cs h) :
    Scene.Path r ⟨m, none⟩ h ⟨m.afterCalls r cs, none⟩ := by
  induction cs generalizing m h with
  | nil =>
    obtain rfl : h = [] := hall
    exact .refl _
  | cons c rest ih =>
    obtain ⟨first, more, rfl, hfirst, hmore⟩ := hall
    exact hfirst.path.trans (ih hmore)

theorem path_of_deeds_eq {m : Machine} {cs : List HostCall} {h : List Deed}
    (hdeeds : m.deeds r cs = h) : Scene.Path r ⟨m, none⟩ h ⟨m.afterCalls r cs, none⟩ :=
  hdeeds ▸ (m.doesAll_deeds cs).path

end Machine

end Treasury
