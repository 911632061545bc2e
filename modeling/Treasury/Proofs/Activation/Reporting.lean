import Mathlib.Algebra.Order.Ring.Int
import Treasury.Proofs.Activation.Quiet

/-!
# What is told of a quantity

Some quantities of a game change by effects only, and each effect says in its result by how much.
Whoever keeps what observers are told can then work such a quantity out from what it was before.
That holds after any call, even after one that a fault ends: an effect is carried out and told of,
or it is not carried out.

* `GameState.Reported`: a quantity changes as the results of effects say.
* `Machine.unreported` is what is left of the quantity without everything that was told, and
  `Machine.Balances` says that it stays the same.
* `Engine.start_balances`, `Engine.resume_balances`, `Engine.cancel_balances`: the calls of a
  machine whose only observer is a recorder keep it. `Machine.run_balances` puts them together with
  the recorder.
-/

namespace Treasury

/-- Effects change a quantity of the game as their results say, and one that could not be carried
out says that it did not change it. -/
structure GameState.Reported (r : Rules) (quantity : GameState → Int) (gain : EffectResult → Int) :
    Prop where
  /-- What is passed over changes nothing. -/
  failed : ∀ kind, gain (.failed kind) = 0
  /-- What is carried out changes the quantity by what its result says. -/
  execute : ∀ (a : Assignment) (t : Table), quantity (exec (a.execute r) t).2.game =
    quantity t.game + gain ((exec (a.execute r) t).1.toOption.getD a.failed)

/-- What an event says of a quantity. -/
def Event.gained (gain : EffectResult → Int) : Event → Int
  | .executed _ _ result => gain result
  | _ => 0

namespace Machine

/-- What is left of a quantity without everything that the recorder was told of it. -/
def unreported (quantity : GameState → Int) (gain : EffectResult → Int) (m : Machine) : Int :=
  quantity m.table.game - (m.record.map (Event.gained gain)).sum

/-- If a recorder is the only observer, it still is, and it was told of all that was done to the
quantity. -/
def Balances (quantity : GameState → Int) (gain : EffectResult → Int) (m m' : Machine) : Prop :=
  m.observers = [.recorder] →
    m'.observers = [.recorder] ∧ m'.unreported quantity gain = m.unreported quantity gain

variable {quantity : GameState → Int} {gain : EffectResult → Int} {m m' : Machine}

instance : IsPreorder Machine (Balances quantity gain) where
  refl _ h := ⟨h, rfl⟩
  trans _ _ _ hfirst hrest h :=
    ⟨(hrest (hfirst h).1).1, (hrest (hfirst h).1).2.trans (hfirst h).2⟩

/-- What the balance is drawn from. -/
def books (m : Machine) : GameState × List Observer × List Event :=
  (m.table.game, m.observers, m.record)

/-- What is done beside the books. -/
theorem balances_of_eq (h : m'.books = m.books) : Balances quantity gain m m' := by
  simp only [books, Prod.mk.injEq] at h
  intro hrecorder
  refine ⟨h.2.1.trans hrecorder, ?_⟩
  unfold unreported
  rw [h.1, h.2.2]

end Machine

namespace Engine

open Machine (Balances balances_of_eq)

variable {quantity : GameState → Int} {gain : EffectResult → Int} {r : Rules} {tell : Tell}

theorem modify_balances {f : Machine → Machine} (h : ∀ m, (f m).books = m.books) :
    Keeps (Balances quantity gain) (modify f : Run PUnit) := fun m => balances_of_eq (h m)

/-- What only throws dice. -/
theorem play_balances {α : Type} {x : Play α} (hx : Keeps Table.Rolled x) :
    Keeps (Balances quantity gain) (Run.play x) := by
  intro m
  rw [Run.exec_play]
  obtain ⟨dice, hdice⟩ := hx m.table
  rw [hdice]
  exact balances_of_eq rfl

theorem enqueue_balances (source : Option Card) (e : Effect) :
    Keeps (Balances quantity gain) (enqueue r source e) :=
  .bind .get fun _ => .bind (play_balances (Table.Rolled.magnitude e r _ _)) fun _ =>
    modify_balances fun _ => rfl

theorem expand_balances (source : Option Card) (groups : List Group) :
    Keeps (Balances quantity gain) (expand r source groups) := by
  induction groups with
  | nil => exact .pure _
  | cons grp rest ih =>
    exact .bind .get fun m => .bind (.forM (enqueue_balances source) _) fun _ => ih

section

variable (ht : Discreet tell)

include ht

/-- A recorder that is told something has one event more. -/
theorem exec_tell_recorder {m : Machine} (h : m.observers = [.recorder]) (e : Event) :
    exec (tell e) m = (.ok (), { m with record := m.record ++ [e] }) := by
  have hquiet : m.Quiet := fun o ho => List.mem_singleton.mp (h ▸ ho)
  rw [ht e m hquiet]
  simp [Machine.noted, h]

/-- What says nothing of the quantity may be told. -/
theorem tell_balances {e : Event} (he : e.gained gain = 0) :
    Keeps (Balances quantity gain) (tell e) := by
  intro m h
  rw [exec_tell_recorder ht h]
  refine ⟨h, ?_⟩
  simp [Machine.unreported, he]

theorem suspend_balances (q : TargetRequest) : Keeps (Balances quantity gain) (suspend tell q) :=
  .bind (modify_balances fun _ => rfl) fun _ =>
    .bind (tell_balances ht rfl) fun _ => .of_fixed fun _ => rfl

theorem finish_balances : Keeps (Balances quantity gain) (finish tell) := by
  refine .bind (modify_balances fun _ => rfl) fun _ m => ?_
  rw [exec_get_bind, exec_set_bind]
  have hcleared : Balances quantity gain m
      { m with queue := [], results := {}, current := none, source := none } :=
    balances_of_eq rfl
  exact IsTrans.trans _ _ _ hcleared (Keeps.bind (tell_balances ht rfl) (fun _ => .pure _) _)

variable (hq : GameState.Reported r quantity gain)

include hq

/-- An effect that is passed over is told of as one that changed nothing. -/
theorem passOver_balances (p : Pending) (magnitude : Int) :
    Keeps (Balances quantity gain) (complete tell p (.failed p.effect.kind) magnitude) :=
  .bind (modify_balances fun _ => rfl) fun _ =>
    tell_balances ht (hq.failed _)

/-- An effect that is carried out is told of with what it changed. -/
theorem dispatch_balances (p : Pending) (targets : List Card) :
    Keeps (Balances quantity gain) (dispatch tell r p targets) := by
  intro m h
  rw [exec_dispatch, Pending.exec_carriedOut]
  have hrolled := p.keeps_magnitude r targets m.results m.table
  rcases hdone : exec (p.magnitude r targets m.results) m.table with ⟨f | magnitude, t⟩ <;>
    rw [hdone] at hrolled <;> obtain ⟨dice, rfl⟩ := hrolled
  · -- Where there is no magnitude, nothing was done and nothing is reported.
    exact ⟨h, rfl⟩
  · dsimp only
    rw [exec_tell_recorder ht (by exact h)]
    refine ⟨h, ?_⟩
    simp only [Machine.unreported, hq.execute, List.map_append, List.sum_append, List.map_cons,
      List.map_nil, List.sum_singleton, Event.gained]
    omega

theorem work_balances (p : Pending) : Keeps (Balances quantity gain) (work tell r p) := by
  unfold work
  split
  · refine .bind .get fun m => .ite ?_ (.ite ?_ (.pure _))
    · exact .bind (passOver_balances ht hq p _) fun _ => .pure _
    · exact .bind (dispatch_balances ht hq p _) fun _ => .pure _
  · exact .bind (modify_balances fun _ => rfl) fun _ =>
      .bind (play_balances (Table.Rolled.autoTargets p.effect r p.source)) fun targets =>
        .bind (dispatch_balances ht hq p targets) fun _ => .pure _

theorem drain_balances (activation : Nat) (queue : List Pending) :
    Keeps (Balances quantity gain) (drain tell r activation queue) := by
  induction queue with
  | nil => exact finish_balances ht
  | cons p rest ih =>
    refine .bind (modify_balances fun _ => rfl) fun _ =>
      .bind (work_balances ht hq p) fun asked => ?_
    cases asked with
    | some q => exact suspend_balances ht q
    | none => exact .bind .get fun m => .ite ih (.of_fixed fun _ => rfl)

theorem proceed_balances (activation : Nat) :
    Keeps (Balances quantity gain) (proceed tell r activation) :=
  .bind .get fun m => .ite (drain_balances ht hq activation m.queue) (.of_fixed fun _ => rfl)

theorem start_balances (groups : List Group) (source : Option Card) :
    Keeps (Balances quantity gain) (start tell r groups source) := by
  intro m
  unfold start
  rw [exec_get_bind]
  split
  · exact Std.Refl.refl m
  · -- What was in flight is cleared, whatever it was.
    dsimp only
    rw [exec_set_bind]
    have hcleared : Balances quantity gain m
        { m with activation := m.activation + 1, queue := [], results := {}, current := none,
                 request := none, source } := balances_of_eq rfl
    refine IsTrans.trans _ _ _ hcleared (Keeps.bind (tell_balances ht rfl) (fun _ => ?_) _)
    refine .bind .get fun m => .ite ?_ (.of_fixed fun _ => rfl)
    exact .bind (modify_balances fun _ => rfl) fun _ =>
      .bind (expand_balances source groups) fun _ => proceed_balances ht hq _

omit ht hq in
/-- Asking for the effect in work changes nothing. -/
theorem current_balances : Keeps (Balances quantity gain) current := by
  refine .bind .get fun m => ?_
  split
  · exact .pure _
  · exact .throw _

theorem resume_balances (ids : List String) :
    Keeps (Balances quantity gain) (resume tell r ids) := by
  refine .bind .get fun m => ?_
  split
  · exact .throw _
  · refine .ite (.throw _) ?_
    split
    · exact .throw _
    · exact .bind (modify_balances fun _ => rfl) fun _ =>
        .bind current_balances fun p => .bind (dispatch_balances ht hq p _) fun _ =>
          proceed_balances ht hq _

theorem cancel_balances : Keeps (Balances quantity gain) (cancel tell r) := by
  refine .bind .get fun m => .ite (.of_fixed fun _ => rfl) ?_
  exact .bind (modify_balances fun _ => rfl) fun _ =>
    .bind current_balances fun p => .bind (passOver_balances ht hq p _) fun _ =>
      proceed_balances ht hq _

end

end Engine

/-- What a call keeps, whoever tells the recorder, it keeps where the machine does. -/
theorem Machine.run_balances {quantity : GameState → Int} {gain : EffectResult → Int} {r : Rules}
    {α : Type} {call : Engine.Tell → Run α}
    (hcall : ∀ {tell}, Engine.Discreet tell → Keeps (Balances quantity gain) (call tell))
    (m : Machine) : Balances quantity gain m (m.run r call).2 := by
  intro h
  have hquiet : m.Quiet := fun o ho => List.mem_singleton.mp (h ▸ ho)
  exact hcall (Engine.discreet_of_quiet hquiet) m h

end Treasury
