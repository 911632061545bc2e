import Treasury.Proofs.Activation.Evidence

/-!
# Overtaken activations

Once another activation has begun, the one before is over: what is done from then on is done for the
new one, whatever was left of the old one and whichever calls of it are still to go on.

* `Deed.Fits` says what may be done for an activation after what was done since it began: its
  effects are queued once, and of these always the next is asked for, carried out or passed over.
* `Scene.Serves` is the invariant: all that the machine holds is of the activation that began last.
* `calls_serve_latest` is the statement for the calls of a host and everything done inside them.
-/

namespace Treasury

open Deed (queuedIn settledIn resultsIn)

/-- What may be done for an activation of some groups from a source, after what was done since it
began. -/
def Deed.Fits (r : Rules) (groups : List Group) (source : Option Card) (since : List Deed) :
    Deed → Prop
  | .began .. => True
  | .queued entries g =>
    since = [] ∧ entries.map (·.effect) <+: groups.flatMap (·.chosen r g {}) ∧
      ∀ p ∈ entries, p.source = source
  | .asked p _ | .passedOver p => (queuedIn since)[(settledIn since).length]? = some p
  | .carriedOut p x y _ _ =>
    (queuedIn since)[(settledIn since).length]? = some p ∧ x.source = source ∧
      y.assignment.results.items = resultsIn since
  | .faulted p x =>
    (queuedIn since)[(settledIn since).length]? = some p ∧ x.source = source
  | .completed o _ =>
    queuedIn since = (settledIn since).map (·.1) ∧
      (since.any (·.isCompleted) = false → o.results = resultsIn since)

/-- All that a machine holds is of an activation of some groups from a source, for which some deeds
were done since it began. -/
structure Scene.Serves (groups : List Group) (source : Option Card) (since : List Deed)
    (s : Scene) : Prop where
  /-- What was queued is done with, in work or still in the queue, in this order. -/
  queued_eq : queuedIn since =
    (settledIn since).map (·.1) ++ (s.machine.current.toList ++ s.machine.queue)
  /-- The results are those of the effects done with, until they are cleared in the end. -/
  results_eq : s.machine.results.items =
    if since.any (·.isCompleted) then [] else resultsIn since
  /-- It comes from its source, until that is cleared in the end. -/
  source_eq : since.any (·.isCompleted) = false → s.machine.source = source
  /-- A request was made for it. -/
  asked : ∀ q, s.machine.request = some q → ∃ p, .asked p q ∈ since
  /-- What is still to be queued are effects of its groups, and nothing was done before. -/
  opening_eq : ∀ opening, s.opening = some opening → opening = groups ∧ since = []
  /-- When it is completed nothing is left of it. -/
  left_eq : since.any (·.isCompleted) = true → s.machine.current = none ∧ s.machine.queue = []

namespace Scene.Serves

variable {r : Rules} {groups : List Group} {source : Option Card} {since : List Deed}
  {s s' : Scene}

/-- The first effect that is not done with is the one in work. -/
theorem getElem?_eq_current (h : Serves groups source since s) {p : Pending}
    (hcurrent : s.machine.current = some p) :
    (queuedIn since)[(settledIn since).length]? = some p := by
  rw [h.queued_eq, hcurrent, ← List.length_map (f := Prod.fst)]
  rw [List.getElem?_append_right (Nat.le_refl _), Nat.sub_self]
  rfl

/-- While an effect is in work the activation is not completed. -/
theorem any_isCompleted_eq_false (h : Serves groups source since s) {p : Pending}
    (hcurrent : s.machine.current = some p) : since.any (·.isCompleted) = false := by
  rw [← Bool.not_eq_true]
  intro hcompleted
  exact absurd (hcurrent.symm.trans (h.left_eq hcompleted).1) (Option.some_ne_none p)

/-- An effect that is done with leaves the one behind it as the next. -/
theorem settle {m m' : Machine} {p : Pending} {d : Deed} {result : EffectResult}
    (h : Serves groups source since ⟨m, none⟩) (hcurrent : m.current = some p)
    (hd : d.settled? = some (p, result)) (hentries : d.entries = []) (hdone : d.isCompleted = false)
    (hcurrent' : m'.current = none) (hqueue : m'.queue = m.queue)
    (hresults : m'.results = m.results.push result) (hsource : m'.source = m.source)
    (hrequest : ∀ q, m'.request = some q → m.request = some q) :
    Serves groups source (since ++ [d]) ⟨m', none⟩ := by
  have hactive := h.any_isCompleted_eq_false hcurrent
  refine ⟨?_, ?_, fun _ => hsource.trans (h.source_eq hactive), fun q hq => ?_, nofun,
    fun hcompleted => ?_⟩
  · have hqueued := h.queued_eq
    simp only [hcurrent] at hqueued
    simp [hd, hentries, hqueued, hcurrent', hqueue]
  · have hstack := h.results_eq
    rw [hactive] at hstack
    -- The stack is cleared only when the activation is completed, and it is not yet.
    have hbefore : m.results.items = resultsIn since := hstack
    simp [hactive, hdone, hd, hresults, hbefore]
  · obtain ⟨p, hp⟩ := h.asked q (hrequest q hq)
    exact ⟨p, List.mem_append_left _ hp⟩
  · simp [hactive, hdone] at hcompleted

/-- Whatever is done serves the activation, as long as no other one begins. -/
theorem step {d : Option Deed} (h : Serves groups source since s) (hstep : Scene.Step r s d s')
    (hd : ∀ e ∈ d, e.isBegan = false) : Serves groups source (since ++ d.toList) s' := by
  cases hstep with
  | aside | rolled | named =>
    rw [Option.toList_none, List.append_nil]
    exact ⟨h.queued_eq, h.results_eq, h.source_eq, h.asked, h.opening_eq, h.left_eq⟩
  | closed m =>
    rw [Option.toList_none, List.append_nil]
    exact ⟨h.queued_eq, h.results_eq, h.source_eq, fun q hq => (nomatch hq), h.opening_eq,
      h.left_eq⟩
  | began => exact absurd (hd _ rfl) (Bool.noConfusion)
  | queued m _ entries =>
    obtain ⟨rfl, rfl⟩ := h.opening_eq _ rfl
    -- Nothing was queued before, so nothing is in work or in the queue either.
    obtain ⟨hcurrent, hqueue⟩ := List.append_eq_nil_iff.mp h.queued_eq.symm
    have hnone : m.current.toList = [] ∧ m.queue = [] := List.append_eq_nil_iff.mp hqueue
    refine ⟨?_, h.results_eq, h.source_eq, fun q hq => ?_, nofun, nofun⟩
    · simp [Deed.entries, Deed.settled?, hnone.1, hnone.2]
    · obtain ⟨p, hp⟩ := h.asked q hq
      exact absurd hp List.not_mem_nil
  | @taken m p rest hqueue hcurrent =>
    rw [Option.toList_none, List.append_nil]
    refine ⟨?_, h.results_eq, h.source_eq, h.asked, h.opening_eq, fun hcompleted => ?_⟩
    · have hqueued := h.queued_eq
      rw [hqueue, hcurrent] at hqueued
      exact hqueued
    · have hleft := (h.left_eq hcompleted).2
      exact absurd (hqueue.symm.trans hleft) (List.cons_ne_nil p rest)
  | @asked m p hcurrent =>
    refine ⟨?_, ?_, fun hactive => ?_, fun q hq => ⟨p, ?_⟩, nofun, fun hcompleted => ?_⟩
    · simpa [Deed.entries, Deed.settled?] using h.queued_eq
    · simpa [Deed.settled?, Deed.isCompleted] using h.results_eq
    · exact h.source_eq (by simpa [Deed.isCompleted] using hactive)
    · obtain rfl := Option.some_inj.mp hq
      exact List.mem_append_right _ (List.mem_singleton_self _)
    · exact h.left_eq (by simpa [Deed.isCompleted] using hcompleted)
  | carriedOut m hcurrent => exact h.settle hcurrent rfl rfl rfl rfl rfl rfl rfl nofun
  | faulted m hcurrent =>
    -- The effect that cannot be measured stays in work.
    refine ⟨?_, ?_, fun hactive => ?_, nofun, nofun, fun hcompleted => ?_⟩
    · simpa [Deed.entries, Deed.settled?] using h.queued_eq
    · simpa [Deed.settled?, Deed.isCompleted] using h.results_eq
    · exact h.source_eq (by simpa [Deed.isCompleted] using hactive)
    · exact h.left_eq (by simpa [Deed.isCompleted] using hcompleted)
  | passedOver m hcurrent => exact h.settle hcurrent rfl rfl rfl rfl rfl rfl rfl fun _ => id
  | completed m _ hqueue hcurrent =>
    refine ⟨?_, ?_, fun hactive => ?_, fun q hq => ?_, nofun, fun _ => ⟨rfl, rfl⟩⟩
    · have hqueued := h.queued_eq
      simp only [hcurrent, hqueue] at hqueued
      simpa [Deed.entries, Deed.settled?] using hqueued
    · simp [Deed.isCompleted]
    · simp [Deed.isCompleted] at hactive
    · obtain ⟨p, hp⟩ := h.asked q hq
      exact ⟨p, List.mem_append_left _ hp⟩

/-- What is done next fits the activation. -/
theorem fits {d : Deed} (h : Serves groups source since s) (hstep : Scene.Step r s (some d) s') :
    d.Fits r groups source since := by
  cases hstep with
  | began => trivial
  | queued m _ _ hchosen hsource =>
    obtain ⟨rfl, rfl⟩ := h.opening_eq _ rfl
    -- The effects are chosen and queued by the results so far, and there are none yet.
    have hresults : m.results = {} := congrArg ResultStack.mk h.results_eq
    rw [hresults] at hchosen
    exact ⟨rfl, hchosen, fun p hp => (hsource p hp).trans (h.source_eq rfl)⟩
  | asked m hcurrent => exact h.getElem?_eq_current hcurrent
  | carriedOut m hcurrent _ _ hy =>
    have hactive := h.any_isCompleted_eq_false hcurrent
    refine ⟨h.getElem?_eq_current hcurrent, h.source_eq hactive, ?_⟩
    subst hy
    have hresults := h.results_eq
    rwa [hactive] at hresults
  | faulted m hcurrent =>
    exact ⟨h.getElem?_eq_current hcurrent, h.source_eq (h.any_isCompleted_eq_false hcurrent)⟩
  | passedOver m hcurrent => exact h.getElem?_eq_current hcurrent
  | completed m _ hqueue hcurrent =>
    refine ⟨?_, fun hactive => ?_⟩
    · have hqueued := h.queued_eq
      simpa only [hcurrent, hqueue, Option.toList_none, List.append_nil] using hqueued
    · have hresults := h.results_eq
      rwa [hactive] at hresults

/-- A whole history serves the activation, as long as no other one begins. -/
theorem path {h : List Deed} (hs : Serves groups source since s) (hpath : Scene.Path r s h s')
    (hh : ∀ d ∈ h, d.isBegan = false) : Serves groups source (since ++ h) s' := by
  induction hpath with
  | refl => rwa [List.append_nil]
  | snoc _ hstep ih =>
    rw [← List.append_assoc]
    refine (ih fun d hd => hh d (List.mem_append_left _ hd)).step hstep fun d hd => ?_
    exact hh d (List.mem_append_right _ (Option.mem_toList.mpr hd))

/-- Right after an activation has begun, the machine holds nothing of any other. -/
theorem of_began {t : Table}
    (hstep : Scene.Step r s (some (.began groups source t)) s') :
    Serves groups source [] s' := by
  cases hstep
  exact ⟨rfl, rfl, fun _ => rfl, nofun,
    fun _ hopening => ⟨(Option.some_inj.mp hopening).symm, rfl⟩, nofun⟩

/-- Since an activation began the machine serves it, whatever there was before. -/
theorem of_path {earlier : List Deed} {t : Table}
    (hpath : Scene.Path r s (earlier ++ .began groups source t :: since) s')
    (hsince : ∀ d ∈ since, d.isBegan = false) : Serves groups source since s' := by
  obtain ⟨_, -, hrest⟩ := hpath.exists_of_append
  obtain ⟨_, _, -, hbegan, hafter⟩ := hrest.exists_of_cons
  exact (of_began hbegan).path hafter hsince

end Scene.Serves

/-- Whatever is done for an activation before another one begins fits it. -/
theorem Scene.Path.fits {r : Rules} {s s' : Scene} {earlier before after : List Deed}
    {groups : List Group} {source : Option Card} {t : Table} {d : Deed}
    (hpath : Scene.Path r s (earlier ++ .began groups source t :: (before ++ d :: after)) s')
    (hbefore : ∀ e ∈ before, e.isBegan = false) : d.Fits r groups source before := by
  obtain ⟨s₁, s₂, s₃, s₄, hbegan, hbetween, hstep⟩ := hpath.exists_of_between
  exact ((Scene.Serves.of_began hbegan).path hbetween hbefore).fits hstep

/-- Whatever calls a host makes, and whatever calls observers make inside them, their deeds are
known. From when an activation has begun until another one begins, all that is done is done for it:
of the effects that it queued itself always the next is asked for, carried out or passed over, with
the results of those before it and no others. And if the calls end meanwhile, the results and the
request that the machine is left with are those of this activation. -/
theorem calls_serve_latest (r : Rules) (m : Machine) (cs : List HostCall) :
    m.DoesAll r cs (m.deeds r cs) ∧
      ∀ earlier groups source t since later,
        m.deeds r cs = earlier ++ .began groups source t :: (since ++ later) →
        (∀ d ∈ since, d.isBegan = false) →
          (∀ before d after, since = before ++ d :: after → d.Fits r groups source before) ∧
            (later = [] → (m.afterCalls r cs).results.items =
                (if since.any (·.isCompleted) then [] else resultsIn since) ∧
              ∀ q, (m.afterCalls r cs).request = some q → ∃ p, .asked p q ∈ since) := by
  refine ⟨m.doesAll_deeds cs, fun earlier groups source t since later hdeeds hsince => ?_⟩
  have hpath := Machine.path_of_deeds_eq hdeeds
  refine ⟨?_, ?_⟩
  · rintro before d after rfl
    rw [List.append_assoc, List.cons_append] at hpath
    exact hpath.fits fun e he => hsince e (List.mem_append_left _ he)
  · rintro rfl
    rw [List.append_nil] at hpath
    have hserves := Scene.Serves.of_path hpath hsince
    exact ⟨hserves.results_eq, hserves.asked⟩

end Treasury
