import Mathlib.Data.List.Basic

/-!
# Journeys

A journey goes from state to state in steps, and some of the steps have a label. What is said of a
run of a system is said of the labels, so a journey can be cut at any of them.

* `Journey.trans` puts journeys one behind the other.
* `Journey.label_induction` tells steps with a label from those without one.
* `Journey.forall_label` and `Journey.exists_of_mem` say what holds of the labels on the way.
* `Journey.exists_of_append` and `Journey.exists_of_cons` cut a journey, between two labels or at
  one, and `Journey.exists_of_between` cuts a part out of it with the steps at both its ends.
-/

namespace Treasury

variable {σ δ : Type}

/-- The labels on the way from one state to another. -/
inductive Journey (Step : σ → Option δ → σ → Prop) : σ → List δ → σ → Prop
  | refl (s : σ) : Journey Step s [] s
  | snoc {s s' s'' : σ} {h : List δ} {d : Option δ} :
      Journey Step s h s' → Step s' d s'' → Journey Step s (h ++ d.toList) s''

namespace Journey

variable {Step : σ → Option δ → σ → Prop} {s s' s'' : σ} {h k : List δ} {d : δ}

theorem of_step {d : Option δ} (hstep : Step s d s') : Journey Step s d.toList s' :=
  snoc (refl s) hstep

theorem trans (hfirst : Journey Step s h s') (hrest : Journey Step s' k s'') :
    Journey Step s (h ++ k) s'' := by
  induction hrest with
  | refl => rwa [List.append_nil]
  | snoc _ hstep ih =>
    rw [← List.append_assoc]
    exact snoc ih hstep

/-- A step without a label adds none. -/
theorem silent (hjourney : Journey Step s h s') (hstep : Step s' none s'') :
    Journey Step s h s'' := by
  have hmore := hjourney.snoc hstep
  rwa [Option.toList_none, List.append_nil] at hmore

/-- What holds at the start holds of all labels and the state at the end, if steps without a label
keep it, and steps with one add their label to it. -/
theorem label_induction {motive : List δ → σ → Prop} (hjourney : Journey Step s h s')
    (refl : motive [] s)
    (silent : ∀ {h s' s''}, Step s' none s'' → motive h s' → motive h s'')
    (labelled : ∀ {h s' d s''}, Step s' (some d) s'' → motive h s' → motive (h ++ [d]) s'') :
    motive h s' := by
  induction hjourney with
  | refl => exact refl
  | @snoc _ _ _ d _ hstep ih =>
    cases d with
    | none =>
      rw [Option.toList_none, List.append_nil]
      exact silent hstep ih
    | some d => exact labelled hstep ih

/-- What every step says of its label holds of all labels on the way. -/
theorem forall_label {P : δ → Prop} (hP : ∀ {s s' : σ} {d : δ}, Step s (some d) s' → P d)
    (hjourney : Journey Step s h s') : ∀ d ∈ h, P d := by
  induction hjourney with
  | refl => exact List.forall_mem_nil P
  | snoc _ hstep ih =>
    intro d hd
    rcases List.mem_append.mp hd with hd | hd
    · exact ih d hd
    · obtain rfl := Option.mem_toList.mp hd
      exact hP hstep

/-- A label on the way stands at a step from a state of which all that steps keep is true. -/
theorem exists_of_mem {P : σ → Prop} (hs : P s)
    (hP : ∀ {s s' : σ} {d : Option δ}, Step s d s' → P s → P s') (hjourney : Journey Step s h s')
    (hd : d ∈ h) : ∃ u u', P u ∧ Step u (some d) u' := by
  suffices hall : P s' ∧ ∀ d ∈ h, ∃ u u', P u ∧ Step u (some d) u' from hall.2 d hd
  clear hd
  induction hjourney with
  | refl => exact ⟨hs, fun _ hd => nomatch hd⟩
  | @snoc u u' _ _ _ hstep ih =>
    refine ⟨hP hstep ih.1, fun e he => ?_⟩
    rcases List.mem_append.mp he with he | he
    · exact ih.2 e he
    · obtain rfl := Option.mem_toList.mp he
      exact ⟨u, u', ih.1, hstep⟩

/-- A journey of two parts passes a state between them. -/
theorem exists_of_append (hjourney : Journey Step s (h ++ k) s'') :
    ∃ s', Journey Step s h s' ∧ Journey Step s' k s'' := by
  generalize hall : h ++ k = all at hjourney
  induction hjourney generalizing k with
  | refl =>
    obtain ⟨rfl, rfl⟩ := List.append_eq_nil_iff.mp hall
    exact ⟨s, refl s, refl s⟩
  | @snoc m s'' before d hbefore hstep ih =>
    cases d with
    | none =>
      rw [Option.toList_none, List.append_nil] at hall
      obtain ⟨s', hfirst, hrest⟩ := ih hall
      exact ⟨s', hfirst, by simpa using snoc hrest hstep⟩
    | some d =>
      -- The last label belongs to the second part, unless that part is empty.
      rcases List.eq_nil_or_concat k with rfl | ⟨k, last, rfl⟩
      · rw [List.append_nil] at hall
        subst hall
        exact ⟨s'', snoc hbefore hstep, refl s''⟩
      · rw [List.concat_eq_append, ← List.append_assoc] at hall
        obtain ⟨hbegin, hlast⟩ := List.append_inj' hall rfl
        obtain ⟨s', hfirst, hrest⟩ := ih hbegin
        rw [List.concat_eq_append, hlast]
        exact ⟨s', hfirst, snoc hrest hstep⟩

/-- A label stands at one step of its journey, and the steps before it have none. -/
theorem exists_of_cons (hjourney : Journey Step s (d :: h) s'') :
    ∃ s₁ s₂, Journey Step s [] s₁ ∧ Step s₁ (some d) s₂ ∧ Journey Step s₂ h s'' := by
  obtain ⟨s', hfirst, hrest⟩ := exists_of_append (h := [d]) hjourney
  suffices hone : ∃ s₁ s₂, Journey Step s [] s₁ ∧ Step s₁ (some d) s₂ ∧ Journey Step s₂ [] s' by
    obtain ⟨s₁, s₂, hbefore, hstep, hafter⟩ := hone
    exact ⟨s₁, s₂, hbefore, hstep, hafter.trans hrest⟩
  clear hjourney hrest
  -- The induction is on the part with the one label, with the steps before and after it.
  generalize hall : [d] = all at hfirst
  induction hfirst with
  | refl => cases hall
  | @snoc m s' before e hbefore hstep ih =>
    cases e with
    | none =>
      rw [Option.toList_none, List.append_nil] at hall
      obtain ⟨s₁, s₂, hfirst, hdeed, hafter⟩ := ih hall
      exact ⟨s₁, s₂, hfirst, hdeed, snoc hafter hstep⟩
    | some e =>
      have hsplit : ([] : List δ) ++ [d] = before ++ [e] := hall
      obtain ⟨rfl, hlast⟩ := List.append_inj' hsplit rfl
      obtain rfl : d = e := List.singleton_inj.mp hlast
      exact ⟨m, s', hbefore, hstep, refl s'⟩

/-- The part of a journey between two labels starts right after the step of the first and ends right
before the step of the second. -/
theorem exists_of_between {earlier since later : List δ} {d e : δ}
    (hjourney : Journey Step s (earlier ++ d :: (since ++ e :: later)) s'') :
    ∃ s₁ s₂ s₃ s₄, Step s₁ (some d) s₂ ∧ Journey Step s₂ since s₃ ∧ Step s₃ (some e) s₄ := by
  obtain ⟨_, -, hrest⟩ := hjourney.exists_of_append
  obtain ⟨s₁, s₂, -, hfirst, hrest⟩ := hrest.exists_of_cons
  obtain ⟨_, hsince, hrest⟩ := hrest.exists_of_append
  obtain ⟨s₃, s₄, hsilent, hlast, -⟩ := hrest.exists_of_cons
  have hall := hsince.trans hsilent
  rw [List.append_nil] at hall
  exact ⟨s₁, s₂, s₃, s₄, hfirst, hall, hlast⟩

end Journey

end Treasury
