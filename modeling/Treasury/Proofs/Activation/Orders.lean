import Treasury.Activation.Observers
import Treasury.Proofs.Activation.Work

/-!
# What observers keep

Whether observers keep a relation between machines comes down to the calls of an order: `start`,
`resume` and `cancel`. Around them an order names the source of an activation, counts events and
reports, and a recorder takes events down.

* `Engine.keeps_perform`: what the three calls keep, every command keeps.
* `Engine.keeps_tellOne`: what every command keeps, each observer keeps.
* `Engine.keeps_notify`: notifications of every depth keep what commands keep as long as the
  notifications inside them do.
-/

namespace Treasury.Engine

variable {r : Rules} {tell : Tell} {R : Machine → Machine → Prop}

/-- A relation does not look at what belongs to the observers. -/
def NeglectsObservers (R : Machine → Machine → Prop) : Prop :=
  ∀ m observers record reports, R m { m with observers, record, reports }

/-- Besides calling the machine, a command may name the source of an activation. -/
theorem keeps_perform [IsPreorder Machine R]
    (hnamed : ∀ m id, R m { m with
      table := { m.table with game := (m.table.game.cardNamed id).2 } })
    (hstart : ∀ groups source, Keeps R (start tell r groups source))
    (hresume : ∀ ids, Keeps R (resume tell r ids)) (hcancel : Keeps R (cancel tell r))
    (c : Command) : Keeps R (perform tell r c) := by
  cases c with
  | start groups source =>
    have hdone := fun card => (hstart groups card).map Reply.outcome
    cases source with
    | none =>
      rw [perform, pure_bind]
      exact hdone none
    | some id =>
      rw [perform]
      -- The card that is named may have to be made.
      refine Keeps.bind (Keeps.map (fun m => ?_) _) hdone
      rw [Run.exec_play, Play.exec_makeFromGame]
      exact hnamed m id
  | resume ids =>
    rw [perform]
    exact (hresume ids).map Reply.outcome
  | cancel =>
    rw [perform]
    exact hcancel.map Reply.outcome
  | preview => exact .of_fixed fun _ => rfl

section Observers

variable [IsPreorder Machine R] (hneglects : NeglectsObservers R)

include hneglects

/-- An order counts the event and reports what came of its command. -/
theorem keeps_tellOne (hperform : ∀ c, Keeps R (perform tell r c)) (e : Event) (index : Nat) :
    Keeps R (tellOne tell r e index) := by
  intro m
  unfold tellOne
  rw [exec_get_bind]
  split
  · exact Std.Refl.refl m
  · exact hneglects m m.observers _ m.reports
  · next o _ =>
    split
    · -- The order counts the event, gives its command, and reports.
      have hcounted := hneglects m
        (m.observers.set index (.order { o with seen := o.seen + 1 })) m.record m.reports
      refine IsTrans.trans (r := R) _ _ _ hcounted (Keeps.ite (fun u => ?_) (.pure _) _)
      exact IsTrans.trans _ _ _ (hperform o.command u) (hneglects _ _ _ _)
    · exact Std.Refl.refl m

theorem keeps_notify_zero (e : Event) : Keeps R (notify r 0 e) := by
  intro m
  simp only [notify, exec_modify]
  split
  · exact hneglects m m.observers _ m.reports
  · exact Std.Refl.refl m

theorem keeps_notify_succ {depth : Nat} (hperform : ∀ c, Keeps R (perform (notify r depth) r c))
    (e : Event) : Keeps R (notify r (depth + 1) e) :=
  .bind .get fun _ => .forM (fun index => keeps_tellOne hneglects hperform e index) _

/-- However deep notifications are nested: the calls in them tell theirs with one depth less. -/
theorem keeps_notify
    (hperform : ∀ depth, (∀ e, Keeps R (notify r depth e)) →
      ∀ c, Keeps R (perform (notify r depth) r c))
    (depth : Nat) (e : Event) : Keeps R (notify r depth e) := by
  induction depth generalizing e with
  | zero => exact keeps_notify_zero hneglects e
  | succ depth ih => exact keeps_notify_succ hneglects (hperform depth ih) e

end Observers

end Treasury.Engine
