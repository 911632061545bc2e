import Mathlib.Tactic.Simps.Basic
import Treasury.Activation.Observers
import Treasury.Proofs.Activation.Work

/-!
# Machines whose observers only listen

A machine is quiet if no observer of it calls it. What such a machine is told about an event ends up
in its record and nowhere else (`exec_notify`), so the steps of an activation can be computed one by
one: `exec_complete`, `exec_suspend` and `exec_finish` say what each of them makes of a quiet
machine.
-/

namespace Treasury

namespace Machine

/-- No observer calls the machine. -/
def Quiet (m : Machine) : Prop := ∀ o ∈ m.observers, o = .recorder

/-- The machine after all its recorders took an event down. -/
@[simps]
def noted (m : Machine) (e : Event) : Machine :=
  { m with record := m.record ++ List.replicate m.observers.length e }

/-- Notifications of a quiet machine are not nested. -/
theorem Quiet.depth_eq {m : Machine} (h : m.Quiet) : m.depth = 1 := by
  have hnone : m.observers.countP (·.isOrder) = 0 := by
    rw [List.countP_eq_zero]
    intro o ho
    rw [h o ho]
    exact Bool.false_ne_true
  rw [depth, hnone]

end Machine

namespace Engine

variable {r : Rules}

/-- A recorder takes an event down. -/
theorem exec_tellOne {tell : Tell} {e : Event} {m : Machine} {i : Nat}
    (h : m.observers[i]? = some .recorder) :
    exec (tellOne tell r e i) m = (.ok (), { m with record := m.record ++ [e] }) := by
  simp only [tellOne, exec_bind, exec_get, h, exec_set]

/-- Recorders that are told an event one after another take it down as often as there are any. -/
theorem exec_forM_tellOne {tell : Tell} {e : Event} (is : List Nat) {m : Machine} (h : m.Quiet)
    (hi : ∀ i ∈ is, i < m.observers.length) :
    exec (is.forM (tellOne tell r e)) m =
      (.ok (), { m with record := m.record ++ List.replicate is.length e }) := by
  induction is generalizing m with
  | nil => simp
  | cons i is ih =>
    have hlt : i < m.observers.length := hi i (List.mem_cons_self ..)
    have hrec : m.observers[i]? = some .recorder := by
      rw [List.getElem?_eq_getElem hlt, h _ (List.getElem_mem hlt)]
    have hrest := ih (m := { m with record := m.record ++ [e] }) h
      fun j hj => hi j (List.mem_cons_of_mem _ hj)
    change exec (tellOne tell r e i >>= fun _ => is.forM (tellOne tell r e)) m = _
    rw [exec_bind, exec_tellOne hrec]
    simp only [hrest, List.append_assoc, List.singleton_append, List.length_cons,
      List.replicate_succ]

/-- What a quiet machine is told ends up in its record and nowhere else. -/
theorem exec_notify {depth : Nat} {e : Event} {m : Machine} (h : m.Quiet) :
    exec (notify r (depth + 1) e) m = (.ok (), m.noted e) := by
  rw [notify, exec_bind, exec_get]
  dsimp only
  rw [exec_forM_tellOne _ h fun i hi => List.mem_range.mp hi, List.length_range]
  rfl

/-- Telling that leaves a quiet machine as it is, up to its record. -/
def Discreet (tell : Tell) : Prop := ∀ e m, m.Quiet → exec (tell e) m = (.ok (), m.noted e)

theorem discreet_notify (depth : Nat) : Discreet (notify r (depth + 1)) :=
  fun _ _ h => exec_notify h

/-- Notifications of a quiet machine leave it as it is, up to its record. -/
theorem discreet_of_quiet {m : Machine} (h : m.Quiet) :
    Discreet (notify r m.depth) := by
  rw [h.depth_eq]
  exact discreet_notify 0

/-- A quiet machine goes on after telling as it was. -/
theorem Discreet.exec_bind {α : Type} {tell : Tell} (ht : Discreet tell) {m : Machine}
    (h : m.Quiet) (e : Event) (f : Unit → Run α) :
    exec (tell e >>= f) m = exec (f ()) (m.noted e) := by
  rw [Treasury.exec_bind, ht e m h]

variable {tell : Tell} (ht : Discreet tell) {m : Machine} (h : m.Quiet)

include ht h

theorem exec_complete (p : Pending) (result : EffectResult) (magnitude : Int) :
    exec (complete tell p result magnitude) m =
      (.ok (), { m with results := m.results.push result, current := none }.noted
        (.executed p.effect.kind magnitude result)) := by
  simp only [complete, exec_bind, exec_modify]
  exact ht _ _ h

theorem exec_suspend (q : TargetRequest) :
    exec (suspend tell q) m =
      (.ok { phase := .awaitingTarget, results := m.results.items, request := some q,
             source := m.source },
        { m with phase := .awaitingTarget, request := some q }.noted (.targetRequired q)) := by
  simp only [suspend, exec_bind, exec_modify]
  rw [ht _ _ (by exact h)]
  rfl

theorem exec_finish :
    exec (finish tell) m =
      (.ok { phase := .completed, results := m.results.items, request := m.request,
             source := m.source },
        { m with phase := .completed, queue := [], results := {}, current := none,
                 source := none }.noted (.completed m.source)) := by
  simp only [finish, exec_bind, exec_modify, exec_get, exec_set]
  rw [ht _ _ (by exact h)]
  rfl

end Engine

end Treasury
