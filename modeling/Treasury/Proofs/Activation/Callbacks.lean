import Treasury.Proofs.Activation.Orders
import Treasury.Proofs.Activation.Rest

/-!
# Where observers are told

A call stops in the middle of its work to tell the observers of an event, and they may do with the
machine what they like before it goes on. So a machine can be called between two calls of its host
and inside every notification, however deep.

* `Engine.ComesTo`: a call comes to tell its observers of an event, at a machine as it stands then.
* `Engine.TellsWhere`: a call tells its observers only where a statement holds.
* `Machine.Place`: the machines that a call may find, each with the event that observers are being
  told of, if any.
* `Engine.tellOne_keepsPlace`: the observers of a machine find it at such a place one after another.
-/

namespace Treasury

namespace Engine

variable {α β : Type}

/-- Observers fail with an error when they are told of an event at a machine. At all other times
they do as the observers in whose stead they are told. -/
structure FailsAt (e : Event) (u : Machine) (x : EngineError) (tell tell' : Tell) : Prop where
  /-- They fail there. -/
  fails : exec (tell' e) u = (.error x, u)
  /-- They do the same elsewhere. -/
  agrees : ∀ e' w, ¬ (e' = e ∧ w = u) → exec (tell' e') w = exec (tell e') w

/-- A call comes to tell its observers of an event at a machine: observers that fail there, with
whatever error, stop it there. -/
def ComesTo (call : Tell → Run α) (tell : Tell) (m : Machine) (e : Event) (u : Machine) : Prop :=
  ∀ x tell', FailsAt e u x tell tell' → exec (call tell') m = (.error x, u)

/-- A call tells its observers only where a statement holds: it does not matter what they would do
elsewhere. -/
def TellsWhere (P : Event → Machine → Prop) (call : Tell → Run α) (tell : Tell) (m : Machine) :
    Prop :=
  ∀ tell' : Tell, (∀ e u, P e u → exec (tell' e) u = exec (tell e) u) →
    exec (call tell') m = exec (call tell) m

theorem exists_failsAt (e : Event) (u : Machine) (x : EngineError) (tell : Tell) :
    ∃ tell', FailsAt e u x tell tell' := by
  classical
  refine ⟨fun e' w => if e' = e ∧ w = u then (.error x, u) else exec (tell e') w, ?_, ?_⟩
  · exact if_pos ⟨rfl, rfl⟩
  · exact fun e' w h => if_neg h

/-- A call comes to tell its observers only where it does tell them. -/
theorem TellsWhere.of_comesTo {P : Event → Machine → Prop} {call : Tell → Run α} {tell : Tell}
    {m u : Machine} {e : Event} (h : TellsWhere P call tell m) (hcomes : ComesTo call tell m e u) :
    P e u := by
  refine Classical.byContradiction fun hnot => ?_
  -- What the observers would fail with is what the call ends with, and cannot matter to it.
  have hends (x : EngineError) : exec (call tell) m = (.error x, u) := by
    obtain ⟨tell', hfails⟩ := exists_failsAt e u x tell
    rw [← hcomes x tell' hfails]
    refine (h tell' fun e' w hP => hfails.agrees e' w ?_).symm
    rintro ⟨rfl, rfl⟩
    exact hnot hP
  have hsame := (hends .nothingPending).symm.trans (hends .noCurrentEffect)
  cases hsame

namespace TellsWhere

variable {P : Event → Machine → Prop} {tell : Tell} {m u : Machine}

/-- What a call does before it tells anyone does not matter. -/
theorem of_eq {call call' : Tell → Run α} (h : TellsWhere P call' tell u)
    (heq : ∀ tell, exec (call tell) m = exec (call' tell) u) : TellsWhere P call tell m := by
  intro tell' hagrees
  rw [heq, heq]
  exact h tell' hagrees

/-- A call that does the same whatever its observers do tells them nowhere. -/
theorem of_exec {call : Tell → Run α} {done : Except EngineError α × Machine}
    (h : ∀ tell, exec (call tell) m = done) : TellsWhere P call tell m :=
  fun tell' _ => (h tell').trans (h tell).symm

/-- Observers are told where the statement holds, and then the call goes on. -/
theorem told_bind {e : Event} {next : Tell → Run β} (h : P e u)
    (hnext : ∀ w, exec (tell e) u = (.ok (), w) → TellsWhere P next tell w) :
    TellsWhere P (fun tell => tell e >>= fun _ => next tell) tell u := by
  intro tell' hagrees
  rw [exec_bind, exec_bind, hagrees e u h]
  rcases hdone : exec (tell e) u with ⟨x | ⟨⟩, w⟩
  · rfl
  · exact hnext w hdone tell' hagrees

end TellsWhere

end Engine

namespace Machine

/-- A machine that a call may find, with the event that observers are being told of: none between
two calls of the host. -/
inductive Place (r : Rules) : Option Event → Machine → Prop where
  /-- A machine that was never called. -/
  | opening {m : Machine} (hphase : m.phase = .idle) (hcurrent : m.current = none)
      (hrequest : m.request = none) : Place r none m
  /-- The host, or an observer while it is told, changes the table and the observers. -/
  | changed {o : Option Event} {m : Machine} (t : Table) (observers : List Observer)
      (record : List Event) (reports : List Report) (h : Place r o m) :
      Place r o { m with table := t, observers, record, reports }
  /-- The host, or an observer while it is told, has made a call. -/
  | called {o : Option Event} {m : Machine} (depth : Nat) (c : HostCall) (h : Place r o m) :
      Place r o (exec (Engine.make (Engine.notify r depth) r c) m).2
  /-- A call comes to tell the observers. -/
  | told {o : Option Event} {m u : Machine} {e : Event} (depth : Nat) (c : HostCall)
      (h : Place r o m)
      (hcomes : Engine.ComesTo (fun tell => Engine.make tell r c) (Engine.notify r depth) m e u) :
      Place r (some e) u

namespace Place

variable {r : Rules} {o : Option Event} {m : Machine}

theorem call (h : Place r none m) (c : HostCall) : Place r none (m.call r c).2 := by
  rw [call_eq_make]
  exact h.called m.depth c

end Place

/-- If a call may find the first machine, it may find the second one, while observers are told of
the same event. -/
def KeepsPlace (r : Rules) (o : Option Event) (m m' : Machine) : Prop := Place r o m → Place r o m'

instance {r : Rules} {o : Option Event} : IsPreorder Machine (KeepsPlace r o) where
  refl _ h := h
  trans _ _ _ h k hm := k (h hm)

end Machine

namespace Engine

variable {r : Rules} {o : Option Event}

/-- An observer finds the machine at a place, calls it there if it is an order, and leaves it at a
place for the next one. -/
theorem tellOne_keepsPlace (depth : Nat) (e : Event) (index : Nat) :
    Keeps (Machine.KeepsPlace r o) (tellOne (notify r depth) r e index) := by
  have hneglects : NeglectsObservers (Machine.KeepsPlace r o) :=
    fun m _ _ _ h => h.changed m.table _ _ _
  have hmake (c : HostCall) : Keeps (Machine.KeepsPlace r o) (make (notify r depth) r c) :=
    fun _ h => h.called depth c
  have hperform := keeps_perform (R := Machine.KeepsPlace r o)
    (fun m _ h => h.changed _ m.observers m.record m.reports)
    (fun groups source => hmake (.start groups source)) (fun ids => hmake (.answer (.pick ids)))
    (hmake (.answer .pass))
  exact keeps_tellOne hneglects hperform e index

end Engine

end Treasury
