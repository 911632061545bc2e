import Treasury.Proofs.Activation.Rest
import Treasury.Proofs.Activation.Selection

/-!
# Selections that are accepted

A machine that waits for targets takes a selection or turns it down, and which of the two it does
can be told from its request alone: all picks have to be candidates, none of them picked twice, and
they may not be too many. The error names the picks that are not candidates, and everything stays as
it was, so a host may try again as often as it likes.

* `TargetRequest.Admits`: what is asked of a selection.
* `Machine.Takes`, `Machine.TurnsDown`: what becomes of a selection that is accepted, and of one
  that is not.
* `Machine.calls_append_of_refused`: calls that are refused come to nothing.
* `Machine.accepts_iff_admits`: the whole account of a selection.
-/

namespace Treasury

/-- A selection, given by ids, is one that the request asks for. -/
structure TargetRequest.Admits (q : TargetRequest) (ids : List String) : Prop where
  /-- Only candidates are picked. -/
  candidates : ∀ id ∈ ids, id ∈ q.candidateIds
  /-- None of them is picked twice. -/
  nodup : ids.Nodup
  /-- There are not too many. -/
  length_le : (ids.length : Int) ≤ q.maxSelections

instance (q : TargetRequest) (ids : List String) : Decidable (q.Admits ids) :=
  decidable_of_iff
    ((∀ id ∈ ids, id ∈ q.candidateIds) ∧ ids.Nodup ∧ (ids.length : Int) ≤ q.maxSelections)
    ⟨fun h => ⟨h.1, h.2.1, h.2.2⟩, fun h => ⟨h.candidates, h.nodup, h.length_le⟩⟩

/-- A selection is taken: the effect that asked is carried out on some candidates, which are those
that are picked, in the order of the picks, and then the queue. -/
structure Machine.Takes (r : Rules) (m : Machine) (p : Pending) (q : TargetRequest)
    (picks : List Pick) (targets : List Card) : Prop where
  /-- The targets are candidates. -/
  subset : targets ⊆ q.candidates
  /-- They are the cards that are picked. -/
  ids_eq : targets.map (·.instanceId) = Pick.ids picks
  /-- The call goes on with them. -/
  exec_eq : ∀ tell, exec (Engine.resumeWith tell r picks) m =
    exec (Engine.dispatch tell r p targets >>= fun _ => Engine.proceed tell r m.activation)
      { m with request := none }

/-- A selection is turned down: the error names the picks that are not candidates, in their order,
and everything stays as it was. -/
structure Machine.TurnsDown (r : Rules) (m : Machine) (q : TargetRequest) (picks : List Pick)
    (e : SelectionError) : Prop where
  /-- The error names the picks that are not candidates. -/
  invalidIds_eq : e.invalidIds = (Pick.ids picks).filter (· ∉ q.candidateIds)
  /-- The call ends with the error and changes nothing. -/
  exec_eq : ∀ tell,
    exec (Engine.resumeWith tell r picks) m = (.error (.invalidSelection e), m)

/-- The host picks cards. -/
def HostCall.pick (picks : List Pick) : HostCall := .answer (.pick (Pick.ids picks))

/-! ## What is accepted -/

namespace Engine

variable {q : TargetRequest} {ids : List String}

theorem exists_selected_iff : (∃ targets, selected q ids = .ok targets) ↔ q.Admits ids := by
  constructor
  · rintro ⟨targets, h⟩
    obtain ⟨hcandidates, hnodup, hlength, -⟩ := selected_eq_ok_iff.mp h
    exact ⟨hcandidates, hnodup, hlength⟩
  · exact fun h => ⟨_, selected_eq_ok_iff.mpr ⟨h.candidates, h.nodup, h.length_le, rfl⟩⟩

/-- What is said against a selection names the picks that are not candidates. -/
theorem invalidIds_of_selected {e : SelectionError} (h : selected q ids = .error e) :
    e.invalidIds = ids.filter (· ∉ q.candidateIds) := by
  unfold selected at h
  dsimp only at h
  split_ifs at h with hnamed hrepeated hmany
  · cases h
    rfl
  all_goals
    cases h
    exact (List.isEmpty_iff.mp (by simpa using hnamed)).symm

/-- Where ids tell the candidates apart, they say which cards are meant. -/
theorem eq_of_ids_eq (hids : q.candidateIds.Nodup) {cs ds : List Card} (hcs : cs ⊆ q.candidates)
    (hds : ds ⊆ q.candidates) (h : cs.map (·.instanceId) = ds.map (·.instanceId)) : cs = ds := by
  induction cs generalizing ds with
  | nil => exact (List.map_eq_nil_iff.mp h.symm).symm
  | cons c cs ih =>
    rcases ds with _ | ⟨d, ds⟩
    · cases h
    · obtain ⟨hcd, hrest⟩ := List.cons.inj h
      obtain ⟨hc, hcs⟩ := List.cons_subset.mp hcs
      obtain ⟨hd, hds⟩ := List.cons_subset.mp hds
      rw [List.inj_on_of_nodup_map hids hc hd hcd, ih hcs hds hrest]

end Engine

/-! ## What becomes of a selection -/

namespace Machine

variable {r : Rules} {m : Machine} {p : Pending} {q : TargetRequest} {picks : List Pick}

/-- A selection that is admitted is taken. -/
theorem Suspended.exists_takes (h : m.Suspended p q) (hadmits : q.Admits (Pick.ids picks)) :
    ∃ targets, m.Takes r p q picks targets := by
  obtain ⟨targets, hselected⟩ := Engine.exists_selected_iff.mpr hadmits
  exact ⟨targets, fun c hc => (Engine.mem_of_selected hselected hc).1,
    Engine.ids_of_selected hselected,
    fun tell => Engine.exec_resume tell h.phase_eq h.current_eq h.request_eq hselected⟩

/-- Where ids tell the candidates apart, a selection is taken in one way only. -/
theorem Takes.targets_eq (hids : q.candidateIds.Nodup) {cs ds : List Card}
    (hcs : m.Takes r p q picks cs) (hds : m.Takes r p q picks ds) : cs = ds :=
  Engine.eq_of_ids_eq hids hcs.subset hds.subset (hcs.ids_eq.trans hds.ids_eq.symm)

/-- A selection that is not admitted is turned down. -/
theorem Suspended.exists_turnsDown (h : m.Suspended p q) (hnot : ¬ q.Admits (Pick.ids picks)) :
    ∃ e, m.TurnsDown r q picks e := by
  rcases hselected : Engine.selected q (Pick.ids picks) with e | targets
  · exact ⟨e, Engine.invalidIds_of_selected hselected,
      fun tell => Engine.exec_resume_refused tell h.phase_eq h.request_eq hselected⟩
  · exact absurd (Engine.exists_selected_iff.mp ⟨targets, hselected⟩) hnot

/-- Observers that do not fail do not keep a selection that is admitted from being accepted. -/
theorem Suspended.accepts_iff (h : m.Suspended p q) {tell : Engine.Tell}
    (ht : Engine.Tells tell) :
    ¬ Refused (exec (Engine.resumeWith tell r picks) m).1 ↔ q.Admits (Pick.ids picks) := by
  rw [Engine.resumeWith, Engine.resume_isRefused_iff ht, not_not, ← Engine.exists_selected_iff]
  constructor
  · rintro ⟨q', targets, hrequest, -, hselected⟩
    obtain rfl : q = q' := Option.some.inj (h.request_eq.symm.trans hrequest)
    exact ⟨targets, hselected⟩
  · rintro ⟨targets, hselected⟩
    exact ⟨q, targets, h.request_eq, h.phase_eq, hselected⟩

/-- Of any number of selections that are not admitted each is turned down. -/
theorem Suspended.exists_forall₂_turnsDown (h : m.Suspended p q) {rejected : List (List Pick)}
    (hnot : ∀ picks ∈ rejected, ¬ q.Admits (Pick.ids picks)) :
    ∃ errors, List.Forall₂ (m.TurnsDown r q) rejected errors := by
  induction rejected with
  | nil => exact ⟨[], .nil⟩
  | cons picks rest ih =>
    obtain ⟨hfirst, hrest⟩ := List.forall_mem_cons.mp hnot
    obtain ⟨e, he⟩ := h.exists_turnsDown (r := r) hfirst
    obtain ⟨errors, herrors⟩ := ih hrest
    exact ⟨e :: errors, .cons he herrors⟩

theorem invalidIds_of_turnsDown {rejected : List (List Pick)} {errors : List SelectionError}
    (h : List.Forall₂ (m.TurnsDown r q) rejected errors) :
    errors.map (·.invalidIds) =
      rejected.map fun picks => (Pick.ids picks).filter (· ∉ q.candidateIds) := by
  induction h with
  | nil => rfl
  | cons hfirst _ ih => rw [List.map_cons, List.map_cons, hfirst.invalidIds_eq, ih]

/-- Calls that leave the machine as it was come to nothing, and those that follow go on as if there
had been none. -/
theorem calls_append_of_refused {cs : List HostCall} {refusals : List EngineError}
    (h : List.Forall₂ (fun c e => m.call r c = (.error e, m)) cs refusals)
    (later : List HostCall) :
    m.calls r (cs ++ later) = refusals.map (fun e => (.error e, m)) ++ m.calls r later := by
  induction h with
  | nil => rfl
  | cons hrefused _ ih =>
    rw [List.cons_append, calls, hrefused, ih]
    rfl

/-- Where the candidates of a request have distinct ids, a selection is accepted exactly if the
request admits it, and in one way only. All other selections are turned down, and however many of
them there were, calls that follow go on as if they had not been made. Where there is no request
every selection is refused, and changes nothing. -/
theorem accepts_iff_admits (r : Rules) (m : Machine) :
    (m.request = none → ∀ tell picks,
      exec (Engine.resumeWith tell r picks) m = (.error .nothingPending, m)) ∧
    ∀ p q, m.Suspended p q → q.candidateIds.Nodup →
      (∀ tell, Engine.Tells tell → ∀ picks,
        ¬ Refused (exec (Engine.resumeWith tell r picks) m).1 ↔ q.Admits (Pick.ids picks)) ∧
      (∀ picks, q.Admits (Pick.ids picks) → ∃! targets, m.Takes r p q picks targets) ∧
      (∀ picks, ¬ q.Admits (Pick.ids picks) → ∃ e, m.TurnsDown r q picks e) ∧
      ∀ rejected : List (List Pick), (∀ picks ∈ rejected, ¬ q.Admits (Pick.ids picks)) →
        ∃ errors, List.Forall₂ (m.TurnsDown r q) rejected errors ∧ ∀ later,
          m.calls r (rejected.map .pick ++ later) =
            errors.map (fun e => (.error (.invalidSelection e), m)) ++ m.calls r later := by
  refine ⟨fun hnone tell picks => Engine.exec_resume_of_request_eq_none tell hnone _,
    fun p q h hids => ⟨fun tell ht picks => h.accepts_iff ht, fun picks hadmits => ?_,
      fun picks hnot => h.exists_turnsDown hnot, fun rejected hrejected => ?_⟩⟩
  · obtain ⟨targets, htargets⟩ := h.exists_takes hadmits
    exact ⟨targets, htargets, fun others hothers => hothers.targets_eq hids htargets⟩
  · obtain ⟨errors, herrors⟩ := h.exists_forall₂_turnsDown hrejected
    refine ⟨errors, herrors, fun later => ?_⟩
    -- Each attempt finds the machine as the one before it did.
    have hrefused : List.Forall₂ (fun c e => m.call r c = (.error e, m))
        (rejected.map .pick) (errors.map .invalidSelection) := by
      rw [List.forall₂_map_left_iff, List.forall₂_map_right_iff]
      exact herrors.imp fun picks e he => he.exec_eq _
    rw [calls_append_of_refused hrefused, List.map_map]
    rfl

/-- Of three debts, two of which may be picked, the second is picked after an attempt to pick a
copper, one to pick the first debt twice, and one to pick all of them. -/
theorem accepts_of_second_debt :
    let second : List Pick := [.card (Purify.debt 2)]
    let rejected : List (List Pick) := [[.named "copper#1"], [.named "debt#1", .named "debt#1"],
      [.card (Purify.debt 1), .card (Purify.debt 2), .card (Purify.debt 3)]]
    Purify.machine.Suspended ⟨Purify.effect, 0, none⟩ Purify.request ∧
      (∃! targets, Purify.machine.Takes Purify.rules ⟨Purify.effect, 0, none⟩ Purify.request second
        targets) ∧
      ∃ errors : List SelectionError,
        errors.map (·.invalidIds) = [["copper#1"], [], []] ∧
          Purify.machine.calls Purify.rules (rejected.map .pick ++ [.pick second]) =
            errors.map (fun e => (.error (.invalidSelection e), Purify.machine)) ++
              Purify.machine.calls Purify.rules [.pick second] := by
  intro second rejected
  have hids : Purify.request.candidateIds.Nodup := by decide
  have hadmits : Purify.request.Admits (Pick.ids second) := by decide
  have hrejected : ∀ picks ∈ rejected, ¬ Purify.request.Admits (Pick.ids picks) := by decide
  obtain ⟨-, htakes, -, hretry⟩ :=
    (accepts_iff_admits Purify.rules Purify.machine).2 _ _ Purify.machine_suspended hids
  obtain ⟨errors, herrors, hcalls⟩ := hretry rejected hrejected
  exact ⟨Purify.machine_suspended, htakes second hadmits, errors, invalidIds_of_turnsDown herrors,
    hcalls _⟩

end Machine

end Treasury
