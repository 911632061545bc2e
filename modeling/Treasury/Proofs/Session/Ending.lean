import Treasury.Proofs.Session.Atomicity

/-!
# Ended sessions

A session that was ended plays no card and triggers no event any more. But targets are picked and
selections cancelled whether or not the session goes on, and a call of either kind that gets through
to the machine takes the session up again.

* `Session.GetsThrough` says which calls get through.
* `Session.call_ended_refused_iff` is the step, and `Session.calls_ended_refused_iff` the statement
  for the calls of a player after the end.
-/

namespace Treasury

/-- The store ends a session by `Session.ended`. -/
theorem Store.sessions_retire (st : Store) (p : Session → Bool) : (st.retire p).sessions =
    st.sessions.map fun s => if s.stored && p s then s.ended else s := rfl

namespace Session

/-- Makes calls of the session one after another, whether or not they fail. -/
def calls (r : Rules) : Session → List PlayerCall → List (Except SessionError Outcome × Session)
  | _, [] => []
  | s, c :: rest => s.call r c :: calls r (s.call r c).2 rest

/-- A call of an ended session gets through to the machine: any that cancels a selection, and one
that picks targets if the machine waits for these. -/
def GetsThrough (s : Session) : PlayerCall → Prop
  | .play _ | .trigger _ _ => False
  | .select ids => s.machine.Accepts ids
  | .cancel => True

/-- A call is refused, and the session is left as it was. -/
def Refuses (s : Session) (done : Except SessionError Outcome × Session) : Prop :=
  (∃ e, done.1 = .error e ∧ e.isRefusal = true) ∧ done.2 = s

variable {r : Rules} {s : Session}

/-- A call of the machine is refused if the machine refuses it. -/
theorem refuses_engine_iff {c : HostCall} {call : Engine.Tell → Run Outcome}
    (hcall : s.machine.run r call = s.machine.call r c) :
    Refuses s (exec (engine r call) s) ↔ Refused (s.machine.call r c).1 := by
  rw [exec_engine, hcall]
  rcases hdone : s.machine.call r c with ⟨e | o, m⟩
  · constructor
    · rintro ⟨⟨e', he', hrefusal⟩, -⟩
      cases he'
      exact ⟨e, rfl, hrefusal⟩
    · rintro ⟨e', he', hrefusal⟩
      cases he'
      -- A refusal of the machine leaves it as it was, and so the session.
      have hsame := Machine.eq_of_call_refused (congrArg Prod.fst hdone) hrefusal
      rw [hdone] at hsame
      obtain rfl : m = s.machine := hsame
      exact ⟨⟨_, rfl, hrefusal⟩, rfl⟩
  · refine iff_of_false ?_ ?_
    · rintro ⟨⟨e', he', -⟩, -⟩
      cases he'
    · rintro ⟨e', he', -⟩
      cases he'

/-- Whatever the call of an ended session, it is refused unless it gets through. -/
theorem call_ended_refused_iff (s : Session) (c : PlayerCall) :
    Refuses s.ended (s.ended.call r c) ↔ ¬ s.GetsThrough c := by
  have ht := Engine.notify_tells (r := r) s.machine.depth
  cases c with
  | play instanceId => exact iff_of_true ⟨⟨.ended, rfl, rfl⟩, rfl⟩ fun h => h
  | trigger eventId choiceId => exact iff_of_true ⟨⟨.ended, rfl, rfl⟩, rfl⟩ fun h => h
  | select ids =>
    refine (refuses_engine_iff (c := .answer (.pick ids)) rfl).trans ?_
    exact Engine.resume_isRefused_iff ht ids s.machine
  | cancel =>
    refine (refuses_engine_iff (c := .answer .pass) rfl).trans ?_
    refine iff_of_false ?_ (not_not_intro trivial)
    rintro ⟨e, he, hrefusal⟩
    exact Engine.cancel_throws ht s.machine e he hrefusal

/-- No outcome ends a session. -/
theorem statusAfter_ne_ended (o : Outcome) : statusAfter o ≠ .ended := by
  unfold statusAfter
  split
  · exact nofun
  · exact nofun

/-- A call that is answered leaves the session going on. -/
theorem leaves_isActive (c : PlayerCall) : Leaves (·.isActive = true) (perform r c) := by
  -- Every outcome of the machine makes the session active or waiting, whatever it was.
  have hengine : ∀ call, Leaves (·.isActive = true) (engine r call) := by
    intro call s o ho
    rw [exec_engine] at ho ⊢
    rcases hdone : s.machine.run r call with ⟨e | o', m⟩ <;> rw [hdone] at ho
    · cases ho
    · exact decide_eq_true (statusAfter_ne_ended o')
  cases c with
  | play instanceId =>
    refine .bind fun _ => .bind fun s => ?_
    split
    · exact .throw _
    · exact .bind fun spent => .ite (.bind fun _ => hengine _) (.throw _)
  | trigger eventId choiceId =>
    refine .bind fun _ => .bind fun s => ?_
    split
    · exact .throw _
    · exact hengine _
  | select ids => exact hengine _
  | cancel => exact hengine _

/-- After its end a session refuses all calls and stays as it is, unless a selection is cancelled or
one that the machine waits for is made. A call that is answered takes the session up again. -/
theorem calls_ended_refused_iff (r : Rules) (s : Session) (cs : List PlayerCall) :
    ((∀ done ∈ s.ended.calls r cs, Refuses s.ended done) ↔ ∀ c ∈ cs, ¬ s.GetsThrough c) ∧
      ∀ done ∈ s.ended.calls r cs, (∃ o, done.1 = .ok o) → done.2.isActive = true := by
  constructor
  · induction cs with
    | nil => exact iff_of_true (fun _ h => nomatch h) (fun _ h => nomatch h)
    | cons c rest ih =>
      rw [calls, List.forall_mem_cons, List.forall_mem_cons, call_ended_refused_iff]
      refine and_congr_right fun hc => ?_
      -- A refused call hands the ended session on as it was.
      rw [((call_ended_refused_iff s c).mpr hc).2]
      exact ih
  · generalize s.ended = s
    induction cs generalizing s with
    | nil => exact fun _ h => nomatch h
    | cons c rest ih =>
      rw [calls, List.forall_mem_cons]
      exact ⟨fun ⟨o, ho⟩ => leaves_isActive c s o ho, ih _⟩

/-- A session that is ended while targets have to be picked goes on when they are picked. -/
theorem not_ended_for_good_of_select :
    let r : Rules := { catalog := Starter.catalog }
    let alchemy : Card := { serial := 1, instanceId := "alchemy#1", cardId := "alchemy" }
    let copper : Card := { serial := 2, instanceId := "copper#2", cardId := "copper" }
    let s := ((({} : Store).create none (some
      { zones := { hand := [alchemy, copper] }, instancesMade := 2, copiesMade := 2 })).1.call r
        (.play "alchemy#1")).2.ended
    ¬ ∀ done ∈ s.calls r [.select ["copper#2"]],
      done.2.status = .ended ∧ done.2.isActive = false ∧ done.2.game = s.game := by
  intro r alchemy copper s h
  have hstatus := (h _ (List.mem_cons_self ..)).1
  have hactive : (s.call r (.select ["copper#2"])).2.status = .active := by decide +kernel
  exact Status.noConfusion (hactive.symm.trans hstatus)

end Session

end Treasury
