import Treasury.Proofs.Activation.Simulation

/-!
# Dialogues

Between an activation that starts and the outcome that completes it lies a dialogue: the machine
requests targets, and the host answers, until there is nothing left to ask. `Machine.Dialogue` is
such a dialogue, with the outcome and the machine at its end, and `dialogue_of_finished` finds one
wherever the direct account of the activation finishes.
-/

namespace Treasury

namespace Machine

/-- A host that is given the outcome of a call answers the requests of the machine until a call
leaves none. The dialogue lists the requests and their answers; the outcome is that of the last
call, and the machine is the one that this call leaves. -/
inductive Dialogue (r : Rules) : List (TargetRequest × Answer) →
    Except EngineError Outcome × Machine → Outcome → Machine → Prop
  /-- Nothing is asked. -/
  | ended {o : Outcome} {m : Machine} (h : o.phase ≠ .awaitingTarget) : Dialogue r [] (.ok o, m) o m
  /-- A request is answered. -/
  | asked {o last : Outcome} {m m' : Machine} {q : TargetRequest} {a : Answer}
      {d : List (TargetRequest × Answer)} (hphase : o.phase = .awaitingTarget)
      (hrequest : o.request = some q) (rest : Dialogue r d (m.answer r a) last m') :
      Dialogue r ((q, a) :: d) (.ok o, m) last m'

/-- No dialogue begins with a call that fails. -/
theorem Dialogue.isOk {r : Rules} {d : List (TargetRequest × Answer)}
    {done : Except EngineError Outcome × Machine} {o : Outcome} {m : Machine}
    (h : Dialogue r d done o m) : ∃ first, done.1 = .ok first := by
  cases h <;> exact ⟨_, rfl⟩

end Machine

/-- If the direct account of an activation finishes with some answers, the dialogue in which they
are given, one after another, ends with its results. -/
theorem dialogue_of_finished {r : Rules} {source : Option Card} {results : ResultStack}
    (answers : List Answer) {x : Play Progress} {t : Table}
    {done : Except EngineError Outcome × Machine} (h : Follows r source (exec x t) done)
    (hfinished : (exec (x >>= Direct.goOn r source answers) t).1 = .ok (.finished results)) :
    ∃ d last, d.map (·.2) = answers ∧ Machine.Dialogue r d done
      { phase := .completed, results := results.items, request := none, source } last := by
  obtain ⟨first, m⟩ := done
  induction answers generalizing x t first m with
  | nil =>
    have hstay : Direct.goOn r source [] = pure := funext fun p => by cases p <;> rfl
    rw [hstay, bind_pure] at hfinished
    obtain ⟨-, -, h⟩ := h
    rw [hfinished] at h
    obtain ⟨rfl, -⟩ : first = _ ∧ _ := h
    exact ⟨[], m, rfl, .ended fun h => nomatch h⟩
  | cons a answers ih =>
    rcases hx : exec x t with ⟨f | p, u⟩
    · rw [exec_bind, hx] at hfinished
      cases hfinished
    · cases p with
      | waiting left request rest =>
        rw [hx] at h
        obtain ⟨htable, hquiet, hok, ⟨p, hw⟩, rfl, hrequest, rfl, rfl⟩ := h
        -- The account takes the first answer in, as the machine does.
        have hnext : Follows r m.source
            (exec (x >>= Direct.goOn r m.source [a]) t) (m.answer r a) := by
          rw [exec_bind, hx, ← show m.table = u from htable]
          exact answer_follows hquiet hw a
        have hsteps : x >>= Direct.goOn r m.source (a :: answers) =
            (x >>= Direct.goOn r m.source [a]) >>= Direct.goOn r m.source answers := by
          rw [bind_assoc]
          exact bind_congr fun p => Direct.goOn_cons m.source a answers p
        rw [hsteps] at hfinished
        obtain ⟨d, last, hanswers, hdialogue⟩ := ih hfinished _ _ hnext
        obtain rfl : first = .ok m.outcome := hok
        refine ⟨(request, a) :: d, last, ?_, .asked hw.phase_eq hrequest hdialogue⟩
        rw [List.map_cons, hanswers]
      -- What has come to an end takes no more answers, so it cannot finish with them.
      | finished left =>
        rw [exec_bind, hx] at hfinished
        cases hfinished
      | refused e =>
        rw [exec_bind, hx] at hfinished
        cases hfinished
      | unasked =>
        rw [exec_bind, hx] at hfinished
        cases hfinished

end Treasury
