import Treasury.Activation.Observers
import Treasury.Proofs.Activation.Work

/-!
# Refused calls

Whether a call of the machine is refused is known before it does anything: once it has begun to act,
all that can go wrong with it is a fault. So a refused call leaves the machine as it was, whatever
observers there are.

* `Engine.start_isRefused_iff` and `Engine.resume_isRefused_iff` say which calls are refused, and
  by `Engine.cancel_throws` no cancelled request is.
* `Engine.start_reverts`, `Engine.resume_reverts`, `Engine.cancel_reverts`: a refused call leaves
  the machine as it was.
-/

namespace Treasury

/-- An error that callers are not told to expect. -/
abbrev EngineError.IsFault (e : EngineError) : Prop := ¬ e.isRefusal = true

/-- A call ends with an error that callers are told to expect. -/
def Refused {α : Type} (answer : Except EngineError α) : Prop :=
  ∃ e, answer = .error e ∧ e.isRefusal = true

/-- The machine has a request, and the selection is one that it accepts. -/
def Machine.Accepts (m : Machine) (ids : List String) : Prop :=
  ∃ q targets, m.request = some q ∧ m.phase = .awaitingTarget ∧
    Engine.selected q ids = .ok targets

namespace Engine

open EngineError (IsFault)

variable {r : Rules} {α : Type}

/-- Telling observers does not fail. -/
def Tells (tell : Tell) : Prop := ∀ e, Throws (fun _ => False) (tell e)

/-- What an action on the table throws is a fault. -/
theorem play_throws (action : Play α) : Throws IsFault (Run.play action) := by
  intro m e he
  rw [Run.exec_play] at he
  rcases hdone : (exec action m.table).1 with f | a <;> rw [hdone] at he
  · cases he
    exact Bool.false_ne_true
  · cases he

theorem attempt_throws (action : Play α) (otherwise : α) :
    Throws IsFault (Run.attempt action otherwise) :=
  .of_ok fun m => ⟨_, congrArg Prod.fst (Run.exec_attempt action otherwise m)⟩

/-- Changing the machine does not fail. -/
theorem modify_throws {P : EngineError → Prop} (f : Machine → Machine) :
    Throws P (modify f : Run PUnit) := .of_ok fun _ => ⟨_, rfl⟩

theorem outcome_throws {P : EngineError → Prop} : Throws P outcome := .of_ok fun _ => ⟨_, rfl⟩

theorem current_throws : Throws IsFault current := by
  intro m e he
  unfold current at he
  rw [exec_get_bind] at he
  rcases hcurrent : m.current with _ | p <;> rw [hcurrent] at he
  · cases he
    exact Bool.false_ne_true
  · cases he

/-- A selection that is not accepted is refused and changes nothing. -/
theorem exec_resume_of_not_accepts (tell : Tell) (r : Rules) {ids : List String} {m : Machine}
    (h : ¬ m.Accepts ids) :
    ∃ e, exec (resume tell r ids) m = (.error e, m) ∧ e.isRefusal = true := by
  unfold resume
  rw [exec_get_bind]
  -- The checks come one after another, and each refuses before anything is written.
  rcases hrequest : m.request with _ | q
  · exact ⟨_, rfl, rfl⟩
  · dsimp only
    rw [exec_ite]
    split
    · exact ⟨_, rfl, rfl⟩
    · next hphase =>
      rcases hids : selected q ids with error | targets
      · exact ⟨_, rfl, rfl⟩
      · exact absurd ⟨q, targets, hrequest, Decidable.not_not.mp hphase, hids⟩ h

theorem expand_throws (source : Option Card) (groups : List Group) :
    Throws IsFault (expand r source groups) := by
  induction groups with
  | nil => exact .pure _
  | cons grp rest ih =>
    refine .bind .get fun m => .bind (.forM (fun e => ?_) _) fun _ => ih
    exact .bind .get fun m => .bind (play_throws _) fun n => modify_throws _

section

variable {tell : Tell} (ht : Tells tell)

include ht

theorem tell_throws {P : EngineError → Prop} (e : Event) : Throws P (tell e) :=
  fun m err h => (ht e m err h).elim

theorem complete_throws (p : Pending) (result : EffectResult) (magnitude : Int) :
    Throws IsFault (complete tell p result magnitude) :=
  .bind (modify_throws _) fun _ => tell_throws ht _

theorem dispatch_throws (p : Pending) (targets : List Card) :
    Throws IsFault (dispatch tell r p targets) := by
  have hmagnitude : Throws IsFault (authoritative r p targets) :=
    .ite (.bind .get fun _ => play_throws _) (.pure _)
  exact .bind (modify_throws _) fun _ => .bind hmagnitude fun _ => .bind .get fun _ =>
    .bind (attempt_throws _ _) fun _ => complete_throws ht p _ _

theorem work_throws (p : Pending) : Throws IsFault (work tell r p) := by
  unfold work
  split
  · refine .bind .get fun m => ?_
    exact .ite (.bind (complete_throws ht p _ _) fun _ => .pure _)
      (.ite (.bind (dispatch_throws ht p _) fun _ => .pure _) (.pure _))
  · exact .bind (modify_throws _) fun _ => .bind (play_throws _) fun targets =>
      .bind (dispatch_throws ht p targets) fun _ => .pure _

theorem drain_throws (activation : Nat) (queue : List Pending) :
    Throws IsFault (drain tell r activation queue) := by
  induction queue with
  | nil =>
    exact .bind (modify_throws _) fun _ => .bind .get fun m =>
      .bind (.of_ok fun _ => ⟨_, rfl⟩) fun _ => .bind (tell_throws ht _) fun _ => .pure _
  | cons p rest ih =>
    refine .bind (modify_throws _) fun _ => .bind (work_throws ht p) fun asked => ?_
    cases asked with
    | some q =>
      exact .bind (modify_throws _) fun _ => .bind (tell_throws ht _) fun _ => outcome_throws
    | none => exact .bind .get fun _ => .ite ih outcome_throws

theorem proceed_throws (activation : Nat) : Throws IsFault (proceed tell r activation) :=
  .bind .get fun _ => .ite (drain_throws ht _ _) outcome_throws

/-- Once an activation is not refused it can only end in a fault. -/
theorem isFault_of_exec_start {groups : List Group} {source : Option Card} {m : Machine}
    (hfree : ¬ (m.isBusy = true ∧ r.config.policy = .reject)) {e : EngineError}
    (he : (exec (start tell r groups source) m).1 = .error e) : e.IsFault := by
  rw [exec_start_begun tell (by simpa using hfree)] at he
  refine Throws.bind (tell_throws ht _) (fun _ => .bind .get fun _ => .ite ?_ outcome_throws) _ e he
  exact .bind (modify_throws _) fun _ => .bind (expand_throws source groups) fun _ =>
    proceed_throws ht _

/-- Once a selection is accepted the call can only end in a fault. -/
theorem isFault_of_exec_resume {ids : List String} {m : Machine} (h : m.Accepts ids)
    {e : EngineError} (he : (exec (resume tell r ids) m).1 = .error e) : e.IsFault := by
  obtain ⟨q, targets, hrequest, hphase, hids⟩ := h
  rw [resume, exec_get_bind] at he
  simp only [hrequest, hphase, ne_eq, not_true_eq_false, if_false, hids] at he
  refine Throws.bind (modify_throws _) (fun _ => .bind current_throws fun p => ?_) _ e he
  exact .bind (dispatch_throws ht p targets) fun _ => proceed_throws ht _

/-- Whatever goes wrong with a cancelled request is a fault. -/
theorem cancel_throws : Throws IsFault (cancel tell r) := by
  refine .bind .get fun m => .ite outcome_throws (.bind (modify_throws _) fun _ => ?_)
  exact .bind current_throws fun p => .bind (complete_throws ht p _ _) fun _ => proceed_throws ht _

/-- An activation is refused if another one is in flight, where that is the policy. -/
theorem start_isRefused_iff (groups : List Group) (source : Option Card) (m : Machine) :
    Refused (exec (start tell r groups source) m).1 ↔
      m.isBusy = true ∧ r.config.policy = .reject := by
  constructor
  · rintro ⟨e, he, hrefusal⟩
    exact Classical.byContradiction fun hfree => isFault_of_exec_start ht hfree he hrefusal
  · rintro ⟨hbusy, hreject⟩
    rw [exec_start_refused tell hbusy hreject]
    exact ⟨_, rfl, rfl⟩

/-- A selection is refused unless there is a request that accepts it. -/
theorem resume_isRefused_iff (ids : List String) (m : Machine) :
    Refused (exec (resume tell r ids) m).1 ↔ ¬ m.Accepts ids := by
  constructor
  · rintro ⟨e, he, hrefusal⟩ h
    exact isFault_of_exec_resume ht h he hrefusal
  · intro h
    obtain ⟨e, he, hrefusal⟩ := exec_resume_of_not_accepts tell r h
    exact ⟨e, congrArg Prod.fst he, hrefusal⟩

/-- A refused activation leaves the machine as it was. -/
theorem start_reverts (groups : List Group) (source : Option Card) :
    Reverts (·.isRefusal = true) Eq (start tell r groups source) := by
  intro m e he hrefusal
  obtain ⟨hbusy, hreject⟩ := (start_isRefused_iff ht groups source m).mp ⟨e, he, hrefusal⟩
  rw [exec_start_refused tell hbusy hreject]

/-- A refused selection leaves the machine as it was. -/
theorem resume_reverts (ids : List String) :
    Reverts (·.isRefusal = true) Eq (resume tell r ids) := by
  intro m e he hrefusal
  have h := (resume_isRefused_iff ht ids m).mp ⟨e, he, hrefusal⟩
  obtain ⟨e', he', -⟩ := exec_resume_of_not_accepts tell r h
  rw [he']

/-- No cancelled request is refused. -/
theorem cancel_reverts : Reverts (·.isRefusal = true) Eq (cancel tell r) :=
  .of_throws (cancel_throws ht)

end

/-- However deep notifications are nested, they do not fail: what goes wrong with the call of an
observer is reported. -/
theorem notify_tells (depth : Nat) : Tells (notify r depth) := by
  cases depth with
  | zero => exact fun e => modify_throws _
  | succ depth =>
    refine fun e => .bind .get fun m => .forM (fun index => ?_) _
    -- What one observer does comes to an answer, whichever of its checks it fails.
    refine .of_ok fun m => ?_
    unfold tellOne
    rw [exec_get_bind]
    rcases m.observers[index]? with _ | _ | o
    · exact ⟨_, rfl⟩
    · exact ⟨_, rfl⟩
    · dsimp only
      split
      · rw [exec_set_bind, exec_ite]
        split
        · exact ⟨_, rfl⟩
        · exact ⟨_, rfl⟩
      · exact ⟨_, rfl⟩

end Engine

end Treasury
