import Treasury.Proofs.Activation.Overtaking

/-!
# Flights

An activation is in flight from when its effects are queued until it is completed. In the histories
of this module no activation begins in that time.

* `Deed.flight` says which deeds a flight allows and where they leave it, and `Flight.run` takes a
  whole history in.
* `Deed.Fate` says what becomes of an activation in such a history: it may be overtaken right when
  it begins; else it is completed with all effects that it queued, or it is the last one.
* `Logbook.Flies`: what is logged on the way from one logbook to another does not disturb flights.
  It also keeps the account of the calls that observers report: each that is not refused is an
  activation that begins.
-/

namespace Treasury

open Deed (settledIn queuedIn)

/-- Where the activation that began last stands. -/
inductive Flight where
  /-- It is completed, or there was none. -/
  | free
  /-- It has not queued its effects yet. -/
  | opening
  /-- It is in flight. -/
  | flying
  deriving DecidableEq

/-- Where a deed leaves a flight, if the flight allows it. An activation may be overtaken before it
has queued its effects where `early` says so. -/
def Deed.flight (early : Bool) : Flight → Deed → Option Flight
  | .free, .began .. => some .opening
  | .opening, .began .. => if early then some .opening else none
  | .opening, .queued .. => some .flying
  | .flying, .asked .. | .flying, .carriedOut .. | .flying, .faulted .. | .flying, .passedOver _ =>
    some .flying
  | .flying, .completed .. => some .free
  | _, _ => none

namespace Flight

/-- Where a history leaves a flight, if the flight allows it. -/
def run (early : Bool) : Flight → List Deed → Option Flight
  | f, [] => some f
  | f, d :: h => (d.flight early f).bind fun f => run early f h

variable {early : Bool} {f f' : Flight} {d : Deed} {h k : List Deed}

theorem run_append : run early f (h ++ k) = (run early f h).bind fun f => run early f k := by
  induction h generalizing f with
  | nil => rfl
  | cons d h ih => simp only [List.cons_append, run, ih, Option.bind_assoc]

theorem run_singleton : run early f [d] = d.flight early f := Option.bind_fun_some _

/-- An activation may begin: none is in flight, or one that may still be overtaken. -/
def Open (early : Bool) (f : Flight) : Prop := f = .free ∨ f = .opening ∧ early = true

theorem Open.flight_began (h : Open early f) (groups : List Group) (source : Option Card)
    (t : Table) : (Deed.began groups source t).flight early f = some .opening := by
  rcases h with rfl | ⟨rfl, rfl⟩
  · rfl
  · rfl

end Flight

/-- What becomes of an activation, given what was done after it began and whether something is in
flight in the end. -/
def Deed.Fate (early busy : Bool) (after : List Deed) : Prop :=
  -- It is overtaken at once, before it has queued an effect.
  (early = true ∧ ∃ groups source t later, after = .began groups source t :: later) ∨
  -- It is completed, and all that it queued is done with.
  (∃ entries g since o t later,
    after = .queued entries g :: (since ++ .completed o t :: later) ∧
      (∀ d ∈ since, d.isBegan = false) ∧ (settledIn since).map (·.1) = entries) ∨
  -- It is still in flight.
  (∃ entries g since, after = .queued entries g :: since ∧
    (∀ d ∈ since, d.isBegan = false ∧ d.isCompleted = false) ∧ busy = true)

namespace Flight

variable {early : Bool} {f : Flight} {h : List Deed}

/-- What is done in flight, up to where it ends. -/
theorem exists_of_run_flying (hrun : run early .flying h = some f) :
    ∃ since, (∀ d ∈ since, d.isBegan = false ∧ d.isCompleted = false ∧ d.entries = []) ∧
      (h = since ∧ f = .flying ∨
        ∃ o t later, h = since ++ .completed o t :: later) := by
  induction h with
  | nil => exact ⟨[], fun _ hd => (nomatch hd), .inl ⟨rfl, (Option.some_inj.mp hrun).symm⟩⟩
  | cons d h ih =>
    -- A deed that neither begins, queues nor completes anything goes in front of what `ih` gives.
    have hstay : ∀ (hd : d.isBegan = false ∧ d.isCompleted = false ∧ d.entries = []),
        run early .flying h = some f → ∃ since,
          (∀ d ∈ since, d.isBegan = false ∧ d.isCompleted = false ∧ d.entries = []) ∧
            (d :: h = since ∧ f = .flying ∨
              ∃ o t later, d :: h = since ++ .completed o t :: later) := by
      intro hd hrest
      obtain ⟨since, hsince, ⟨rfl, rfl⟩ | ⟨o, t, later, rfl⟩⟩ := ih hrest
      · exact ⟨d :: h, List.forall_mem_cons.mpr ⟨hd, hsince⟩, .inl ⟨rfl, rfl⟩⟩
      · exact ⟨d :: since, List.forall_mem_cons.mpr ⟨hd, hsince⟩, .inr ⟨o, t, later, rfl⟩⟩
    cases d with
    -- Neither is allowed in flight.
    | began | queued => cases hrun
    | asked | carriedOut | faulted | passedOver => exact hstay ⟨rfl, rfl, rfl⟩ hrun
    | completed o t => exact ⟨[], fun _ hd => (nomatch hd), .inr ⟨o, t, h, rfl⟩⟩

end Flight

/-- Every activation of a history along which flights are not disturbed has its fate. -/
theorem Scene.Path.fate {r : Rules} {early busy : Bool} {s s' : Scene} {f f' : Flight}
    {before after : List Deed} {groups : List Group} {source : Option Card} {t : Table}
    (hpath : Scene.Path r s (before ++ .began groups source t :: after) s')
    (hrun : Flight.run early f (before ++ .began groups source t :: after) = some f')
    (hbusy : f' = if busy then .flying else .free) : Deed.Fate early busy after := by
  rw [Flight.run_append, Option.bind_eq_some_iff] at hrun
  obtain ⟨f₁, -, hrun⟩ := hrun
  rw [Flight.run, Option.bind_eq_some_iff] at hrun
  obtain ⟨f₂, hbegan, hrun⟩ := hrun
  -- Wherever the flight stood before, the activation opens one.
  obtain rfl : f₂ = .opening := by
    cases f₁ with
    | free => exact (Option.some_inj.mp hbegan).symm
    | opening =>
      cases early
      · cases hbegan
      · exact (Option.some_inj.mp hbegan).symm
    | flying => cases hbegan
  cases after with
  | nil =>
    -- A history does not end before the activation has queued its effects.
    cases hrun
    cases busy <;> cases hbusy
  | cons d after =>
    -- The next deed settles the fate: another activation begins, or this one queues its effects.
    cases d with
    | asked | carriedOut | faulted | passedOver | completed => cases hrun
    | began groups' source' t' =>
      cases early with
      | false => cases hrun
      | true => exact .inl ⟨rfl, groups', source', t', after, rfl⟩
    | queued entries g =>
      obtain ⟨since, hsince, ⟨rfl, rfl⟩ | ⟨o, t', later, rfl⟩⟩ :=
        Flight.exists_of_run_flying (f := f') hrun
      · refine .inr (.inr ⟨entries, g, after, rfl,
          fun d hd => ⟨(hsince d hd).1, (hsince d hd).2.1⟩, ?_⟩)
        cases busy
        · cases hbusy
        · rfl
      · refine .inr (.inl ⟨entries, g, since, o, t', later, rfl,
          fun d hd => (hsince d hd).1, ?_⟩)
        rw [← List.cons_append] at hpath
        have hfits := hpath.fits (List.forall_mem_cons.mpr ⟨rfl, fun d hd => (hsince d hd).1⟩)
        -- Only at the beginning was anything queued.
        have hqueued : queuedIn since = [] :=
          List.flatMap_eq_nil_iff.mpr fun d hd => (hsince d hd).2.2
        have hall : entries ++ queuedIn since = (settledIn since).map (·.1) := hfits.1
        rw [← hall, hqueued, List.append_nil]

/-- The answer to a call that starts an activation does not refuse it. -/
def isAccepted {α : Type} : Except EngineError α → Bool
  | .error (.inProgress _) => false
  | _ => true

namespace Logbook

/-- What is logged on the way from one logbook to another leads from flight to flight. Of the
activations that begin in it, all but the given number began by calls of observers, which are
reported. -/
def Flies (early : Bool) (calls : Nat) (f : Flight) (l : Logbook) (f' : Flight) (l' : Logbook) :
    Prop :=
  ∃ h reports, l'.deeds = l.deeds ++ h ∧ Flight.run early f h = some f' ∧
    l'.machine.reports = l.machine.reports ++ reports ∧
      h.countP (·.isBegan) = calls + reports.countP (isAccepted ·.answer)

namespace Flies

variable {early : Bool} {n k : Nat} {f f' f'' : Flight} {l l' l'' : Logbook}

/-- Where nothing is logged or reported, the flight goes on. -/
theorem of_silent (hdeeds : l'.deeds = l.deeds)
    (hreports : l'.machine.reports = l.machine.reports) : Flies early 0 f l f l' :=
  ⟨[], [], hdeeds.trans (List.append_nil _).symm, rfl, hreports.trans (List.append_nil _).symm, rfl⟩

theorem refl : Flies early 0 f l f l := of_silent rfl rfl

/-- A deed that the flight allows is logged. -/
theorem of_deed {d : Deed} (hd : d.flight early f = some f') (hbegan : d.isBegan = false)
    (hdeeds : l'.deeds = l.deeds ++ [d]) (hreports : l'.machine.reports = l.machine.reports) :
    Flies early 0 f l f' l' := by
  refine ⟨[d], [], hdeeds, ?_, hreports.trans (List.append_nil _).symm, ?_⟩
  · rw [Flight.run_singleton, hd]
  · rw [List.countP_singleton, hbegan]
    rfl

/-- An activation begins, by a call that is not reported yet. -/
theorem of_began {groups : List Group} {source : Option Card} {t : Table}
    (hopen : Flight.Open early f) (hdeeds : l'.deeds = l.deeds ++ [.began groups source t])
    (hreports : l'.machine.reports = l.machine.reports) : Flies early 1 f l .opening l' := by
  refine ⟨[.began groups source t], [], hdeeds, ?_, hreports.trans (List.append_nil _).symm, rfl⟩
  rw [Flight.run_singleton, hopen.flight_began]

theorem trans (h : Flies early n f l f' l') (h' : Flies early k f' l' f'' l'') :
    Flies early (n + k) f l f'' l'' := by
  obtain ⟨h, reports, hdeeds, hrun, hreports, hcount⟩ := h
  obtain ⟨h', reports', hdeeds', hrun', hreports', hcount'⟩ := h'
  refine ⟨h ++ h', reports ++ reports', ?_, ?_, ?_, ?_⟩
  · rw [hdeeds', hdeeds, List.append_assoc]
  · rw [Flight.run_append, hrun, Option.bind_some, hrun']
  · rw [hreports', hreports, List.append_assoc]
  · rw [List.countP_append, List.countP_append, hcount, hcount']
    omega

/-- No activation begins first except by a call that is reported. -/
theorem trans_zero (h : Flies early 0 f l f' l') (h' : Flies early n f' l' f'' l'') :
    Flies early n f l f'' l'' := by
  have hall := h.trans h'
  rwa [Nat.zero_add] at hall

/-- A call is reported last. -/
theorem report {report : Report}
    (h : Flies early ((if isAccepted report.answer then 1 else 0) + n) f l f' l') :
    Flies early n f l f'
      { l' with machine := { l'.machine with reports := l'.machine.reports ++ [report] } } := by
  obtain ⟨h, reports, hdeeds, hrun, hreports, hcount⟩ := h
  refine ⟨h, reports ++ [report], hdeeds, hrun, ?_, ?_⟩
  · change l'.machine.reports ++ [report] = _
    rw [hreports, List.append_assoc]
  · rw [List.countP_append, List.countP_singleton, hcount]
    omega

end Flies

end Logbook

end Treasury
