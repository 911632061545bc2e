import Mathlib.Data.List.ReduceOption
import Treasury.Proofs.Activation.Dialogue

/-!
# Observers that answer requests

A host may answer a request from inside the notification of it. Here this is done by standing
orders, each of which gives one answer to the first request that it is told of. Since the calls of
an order tell the other orders of the requests that they come to, a row of such orders answers
request after request, one notification inside the other.

* `Observer.Prompts` says which answers observers have ready, in order; any can be had ready
  (`Observer.prompts_orders`).
* `Engine.exec_notify_idle`: as long as there is no request, or no answer, the machine stays as it
  is up to its observers.
* `Engine.exec_notify_prompt`: at a request the first answer is given, and the machine is then what
  this call makes of it.
-/

namespace Treasury

/-- The answer that a command gives to a request. -/
def Command.answer? : Command → Option Answer
  | .resume ids => some (.pick ids)
  | .cancel => some .pass
  | .start .. | .preview => none

/-- The command that gives an answer. -/
def Answer.command : Answer → Command
  | .pick ids => .resume ids
  | .pass => .cancel

@[simp]
theorem Answer.answer?_command (a : Answer) : a.command.answer? = some a := by
  cases a <;> rfl

namespace Observer

/-- The answer that an observer has ready. An order that is done has none. -/
def ready? : Observer → Option Answer
  | .recorder => none
  | .order o => if o.seen = 0 then o.command.answer? else none

/-- The observer only listens, or answers the first request that it is told of. -/
def IsPrompt : Observer → Prop
  | .recorder => True
  | .order o =>
    o.moment = .targetRequired ∧ o.nth = 1 ∧ 0 ≤ o.seen ∧ o.command.answer?.isSome = true

/-- Observers that only listen or answer requests, with what each of them has ready. -/
structure Plan (plan : List (Option Answer)) (observers : List Observer) : Prop where
  /-- The observers listen or answer requests. -/
  isPrompt : ∀ o ∈ observers, o.IsPrompt
  /-- They have this ready. -/
  ready_eq : observers.map ready? = plan

/-- Observers that only listen or answer requests, and have the given answers ready. -/
def Prompts (answers : List Answer) (observers : List Observer) : Prop :=
  ∃ plan, Plan plan observers ∧ plan.reduceOption = answers

/-- Only an order has an answer ready, and only until it gives it. -/
theorem ready?_eq_some_iff {p : Observer} {a : Answer} :
    p.ready? = some a ↔ ∃ o, p = .order o ∧ o.seen = 0 ∧ o.command.answer? = some a := by
  cases p with
  | recorder => simp [ready?]
  | order o => simp [ready?]

/-- Whatever the answers are, a row of orders has them ready. -/
theorem prompts_orders (answers : List Answer) :
    Prompts answers
      (answers.map fun a => .order { moment := .targetRequired, command := a.command }) := by
  refine ⟨answers.map some, ⟨fun o ho => ?_, ?_⟩, ?_⟩
  · obtain ⟨a, -, rfl⟩ := List.mem_map.mp ho
    exact ⟨rfl, rfl, Int.le_refl 0, by rw [Answer.answer?_command, Option.isSome_some]⟩
  · rw [List.map_map]
    exact List.map_congr_left fun a _ => a.answer?_command
  · rw [List.reduceOption, List.filterMap_map, Function.id_comp, List.filterMap_some]

/-- Only orders answer, each of them once. -/
theorem Prompts.length_le {answers : List Answer} {observers : List Observer}
    (h : Prompts answers observers) : answers.length ≤ observers.countP (·.isOrder) := by
  obtain ⟨_, ⟨-, rfl⟩, rfl⟩ := h
  rw [List.reduceOption, List.filterMap_map, List.length_filterMap_eq_countP]
  refine List.countP_mono_left fun o _ ho => ?_
  cases o with
  | recorder => cases ho
  | order o => rfl

/-- An observer may be replaced by one that has the same ready. -/
theorem Plan.set {plan : List (Option Answer)} {observers : List Observer} (h : Plan plan observers)
    {i : Nat} {o p : Observer} (hi : observers[i]? = some o) (hp : p.IsPrompt)
    (hsame : p.ready? = o.ready?) : Plan plan (observers.set i p) where
  isPrompt q hq := by
    rcases List.mem_or_eq_of_mem_set hq with hq | rfl
    · exact h.isPrompt q hq
    · exact hp
  ready_eq := by
    obtain ⟨_, rfl⟩ := List.getElem?_eq_some_iff.mp hi
    rw [List.map_set, hsame, ← List.map_set, List.set_getElem_self, h.ready_eq]

/-- An order that gives its answer has none any more. -/
theorem Plan.set_none {plan : List (Option Answer)} {observers : List Observer}
    (h : Plan plan observers) (i : Nat) {p : Observer} (hp : p.IsPrompt) (hnone : p.ready? = none) :
    Plan (plan.set i none) (observers.set i p) where
  isPrompt q hq := by
    rcases List.mem_or_eq_of_mem_set hq with hq | rfl
    · exact h.isPrompt q hq
    · exact hp
  ready_eq := by rw [List.map_set, hnone, h.ready_eq]

end Observer

/-- The machines differ in their observers and in what these took down at most. -/
def Machine.Twins (m m' : Machine) : Prop :=
  ∃ observers record reports, m' = { m with observers, record, reports }

instance : IsPreorder Machine Machine.Twins where
  refl m := ⟨m.observers, m.record, m.reports, rfl⟩
  trans := by
    rintro m _ _ ⟨_, _, _, rfl⟩ ⟨observers, record, reports, rfl⟩
    exact ⟨observers, record, reports, rfl⟩

namespace Engine

open Observer (Plan Prompts IsPrompt ready?)

/-- Gives an answer to the machine. -/
def give (tell : Tell) (r : Rules) : Answer → Run Outcome
  | .pick ids => resume tell r ids
  | .pass => cancel tell r

variable (tell : Tell) (r : Rules) {m : Machine} {plan : List (Option Answer)} {e : Event}

/-- An order that gives an answer leaves the machine that the answer leaves, up to the report. -/
theorem exec_carryOut {o : StandingOrder} {a : Answer} (h : o.command.answer? = some a) :
    ∃ reports, exec (carryOut tell r o) m =
      (.ok (), { (exec (give tell r a) m).2 with reports }) := by
  -- A command that answers a request gives the answer, and its reply is the outcome of that.
  have hperform : (exec (perform tell r o.command) m).2 = (exec (give tell r a) m).2 := by
    unfold Command.answer? at h
    split at h
    · next ids heq =>
      cases h
      rw [heq, perform, exec_map]
      rfl
    · next heq =>
      cases h
      rw [heq, perform, exec_map]
      rfl
    · cases h
    · cases h
  rw [← hperform]
  exact ⟨_, rfl⟩

/-- What an order makes of a request that it is told of. -/
theorem exec_tellOne_order {i : Nat} {o : StandingOrder} (hi : m.observers[i]? = some (.order o))
    (ho : Observer.IsPrompt (.order o)) (he : e.moment = .targetRequired) :
    exec (tellOne tell r e i) m =
      exec (if o.seen = 0 then carryOut tell r o else pure ()) { m with
        observers := m.observers.set i (.order { o with seen := o.seen + 1 }) } := by
  obtain ⟨hmoment, hnth, -, -⟩ := ho
  have hfirst : o.seen + 1 = o.nth ↔ o.seen = 0 := by omega
  rw [tellOne, exec_get_bind, hi]
  dsimp only
  rw [if_pos (hmoment.trans he.symm), exec_set_bind]
  simp only [hfirst]

/-- An observer that is told of no request, or has no answer ready, leaves the machine as it is. -/
theorem exec_tellOne_idle {i : Nat} (hp : Plan plan m.observers)
    (hidle : e.moment = .targetRequired → plan[i]?.join = none) :
    ∃ u, exec (tellOne tell r e i) m = (.ok (), u) ∧ m.Twins u ∧ Plan plan u.observers := by
  cases hi : m.observers[i]? with
  | none =>
    rw [tellOne, exec_get_bind, hi]
    exact ⟨m, rfl, Std.Refl.refl m, hp⟩
  | some o =>
    have ho := hp.isPrompt o (List.mem_of_getElem? hi)
    cases o with
    | recorder =>
      rw [tellOne, exec_get_bind, hi]
      exact ⟨_, rfl, ⟨_, _, _, rfl⟩, hp⟩
    | order o =>
      by_cases hrequest : e.moment = .targetRequired
      · -- The order has given its answer before, since none is ready.
        have hdone : (Observer.order o).ready? = none := by
          have hat := hidle hrequest
          rw [← hp.ready_eq, List.getElem?_map, hi] at hat
          exact hat
        have hseen : o.seen ≠ 0 := by
          intro hzero
          rw [ready?, if_pos hzero] at hdone
          have hanswer := ho.2.2.2
          rw [hdone] at hanswer
          cases hanswer
        rw [exec_tellOne_order tell r hi ho hrequest, if_neg hseen]
        obtain ⟨hmoment, hnth, hleast, hanswer⟩ := ho
        refine ⟨_, rfl, ⟨_, _, _, rfl⟩, hp.set hi ⟨hmoment, hnth, ?_, hanswer⟩ ?_⟩
        · change 0 ≤ o.seen + 1
          omega
        · rw [hdone, ready?, if_neg]
          change ¬ o.seen + 1 = 0
          omega
      · have hother : o.moment ≠ e.moment := fun h => hrequest (h.symm.trans ho.1)
        rw [tellOne, exec_get_bind, hi]
        dsimp only
        rw [if_neg hother]
        exact ⟨m, rfl, Std.Refl.refl m, hp⟩

/-- An order that is told of a request gives the answer that it has ready. It is done with that
before the machine is called. -/
theorem exec_tellOne_ready {i : Nat} {a : Answer} (hp : Plan plan m.observers)
    (hi : plan[i]? = some (some a)) (he : e.moment = .targetRequired) :
    ∃ u reports, m.Twins u ∧ Plan (plan.set i none) u.observers ∧
      exec (tellOne tell r e i) m = (.ok (), { (exec (give tell r a) u).2 with reports }) := by
  rw [← hp.ready_eq, List.getElem?_map] at hi
  obtain ⟨p, hat, hready⟩ := Option.map_eq_some_iff.mp hi
  obtain ⟨o, rfl, hseen, hanswer⟩ := Observer.ready?_eq_some_iff.mp hready
  have ho := hp.isPrompt (.order o) (List.mem_of_getElem? hat)
  -- The order has counted its event before it gives the answer, so it is not ready any more.
  let u : Machine :=
    { m with observers := m.observers.set i (.order { o with seen := o.seen + 1 }) }
  have hu : Plan (plan.set i none) u.observers := by
    refine hp.set_none i ⟨ho.1, ho.2.1, ?_, ho.2.2.2⟩ ?_
    · change 0 ≤ o.seen + 1
      omega
    · rw [ready?, if_neg]
      change ¬ o.seen + 1 = 0
      omega
  obtain ⟨reports, hcarry⟩ := exec_carryOut tell r (m := u) hanswer
  refine ⟨u, reports, ⟨_, _, _, rfl⟩, hu, ?_⟩
  rw [exec_tellOne_order tell r hat ho he, if_pos hseen]
  exact hcarry

/-- So do several observers one after another. -/
theorem exec_forM_tellOne_idle (is : List Nat) (hp : Plan plan m.observers)
    (hidle : e.moment = .targetRequired → ∀ i ∈ is, plan[i]?.join = none) :
    ∃ u, exec (is.forM (tellOne tell r e)) m = (.ok (), u) ∧ m.Twins u ∧ Plan plan u.observers := by
  induction is generalizing m with
  | nil => exact ⟨m, rfl, Std.Refl.refl m, hp⟩
  | cons i is ih =>
    obtain ⟨u, hhead, htwins, hu⟩ := exec_tellOne_idle tell r (e := e) (i := i) hp
      fun he => hidle he i (List.mem_cons_self ..)
    obtain ⟨v, hrest, htwins', hv⟩ := ih hu fun he j hj => hidle he j (List.mem_cons_of_mem _ hj)
    refine ⟨v, ?_, IsTrans.trans m u v htwins htwins', hv⟩
    change exec (tellOne tell r e i >>= fun _ => is.forM (tellOne tell r e)) m = _
    rw [exec_bind, hhead]
    exact hrest

/-- Where no answer is ready, no observer has one. -/
theorem join_getElem?_of_reduceOption (h : plan.reduceOption = []) (i : Nat) :
    plan[i]?.join = none := by
  have hnone := List.filterMap_eq_nil_iff.mp h
  cases hi : plan[i]? with
  | none => rfl
  | some ready => exact hnone ready (List.mem_of_getElem? hi)

/-- Observers that are told of no request, or have no answer ready, leave the machine as it is. -/
theorem exec_notify_idle {k : Nat} {answers : List Answer} (hp : Prompts answers m.observers)
    (hidle : e.moment = .targetRequired → answers = []) :
    ∃ u, exec (notify r (k + 1) e) m = (.ok (), u) ∧ m.Twins u ∧ Prompts answers u.observers := by
  obtain ⟨plan, hplan, rfl⟩ := hp
  rw [notify, exec_get_bind]
  obtain ⟨u, hdone, htwins, hu⟩ := exec_forM_tellOne_idle (notify r k) r (e := e)
    (List.range m.observers.length) hplan
    fun he i _ => join_getElem?_of_reduceOption (hidle he) i
  exact ⟨u, hdone, htwins, plan, hu, rfl⟩

/-- At a request, the first answer that is ready is given from inside the notification. If the
machine that this leaves has no answer ready, the others leave it as it is. -/
theorem exec_notify_prompt {k : Nat} {a : Answer} {answers : List Answer}
    (hp : Prompts (a :: answers) m.observers) (he : e.moment = .targetRequired) :
    ∃ v, m.Twins v ∧ Prompts answers v.observers ∧
      (Prompts [] (exec (give (notify r k) r a) v).2.observers →
        ∃ u, exec (notify r (k + 1) e) m = (.ok (), u) ∧
          (exec (give (notify r k) r a) v).2.Twins u ∧ Prompts [] u.observers) := by
  obtain ⟨plan, hplan, hanswers⟩ := hp
  obtain ⟨before, ready, after, rfl, hbefore, rfl : ready = some a, hafter⟩ :=
    List.filterMap_eq_cons_iff.mp hanswers
  have hlength : m.observers.length = before.length + (after.length + 1) := by
    rw [← List.length_map (f := ready?), hplan.ready_eq, List.length_append, List.length_cons]
  have hleft : ((before ++ some a :: after).set before.length none).reduceOption = answers := by
    rw [List.set_append_right _ _ (Nat.le_refl _), Nat.sub_self, List.set_cons_zero,
      List.reduceOption_append, List.reduceOption_cons_of_none,
      show before.reduceOption = [] from List.filterMap_eq_nil_iff.mpr hbefore, List.nil_append]
    exact hafter
  have hnone : ∀ i < before.length, (before ++ some a :: after)[i]?.join = none := by
    intro i hi
    rw [List.getElem?_append_left hi, List.getElem?_eq_getElem hi]
    exact hbefore _ (List.getElem_mem hi)
  have hfirst : (before ++ some a :: after)[before.length]? = some (some a) := by
    rw [List.getElem?_append_right (Nat.le_refl _), Nat.sub_self]
    rfl
  rw [notify, exec_get_bind, hlength, List.range_add, List.range_succ_eq_map, List.map_cons,
    Nat.add_zero]
  -- The observers before the order that answers have nothing to say.
  obtain ⟨u, hidle, htwins, hu⟩ := exec_forM_tellOne_idle (notify r k) r (e := e)
    (List.range before.length) hplan fun _ i hi => hnone i (List.mem_range.mp hi)
  obtain ⟨v, reports, htwins', hv, htell⟩ := exec_tellOne_ready (notify r k) r hu hfirst he
  refine ⟨v, IsTrans.trans m u v htwins htwins', ⟨_, hv, hleft⟩, ?_⟩
  rintro ⟨plan, hdone, hempty⟩
  -- Nor have those behind it, since no answer is left.
  obtain ⟨w, hrest, htwins'', hw⟩ := exec_forM_tellOne_idle (notify r k) r (e := e)
    (m := { (exec (give (notify r k) r a) v).2 with reports })
    (((List.range after.length).map Nat.succ).map (before.length + ·)) hdone
    fun _ i _ => join_getElem?_of_reduceOption hempty i
  refine ⟨w, ?_, IsTrans.trans _ _ w ⟨_, _, _, rfl⟩ htwins'', plan, hw, hempty⟩
  calc exec ((List.range before.length ++ before.length ::
        ((List.range after.length).map Nat.succ).map (before.length + ·)).forM
          (tellOne (notify r k) r e)) m
      = exec ((List.range before.length).forM (tellOne (notify r k) r e) >>= fun _ =>
          tellOne (notify r k) r e before.length >>= fun _ =>
            (((List.range after.length).map Nat.succ).map (before.length + ·)).forM
              (tellOne (notify r k) r e)) m := by
        rw [show List.forM (_ ++ _) _ = _ from List.forM_append]
        rfl
    _ = (.ok (), w) := by
        rw [exec_bind, hidle]
        dsimp only
        rw [exec_bind, htell]
        exact hrest

end Engine

end Treasury
