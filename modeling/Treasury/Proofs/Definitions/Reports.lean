import Mathlib.Tactic.IntervalCases
import Treasury.Proofs.Definitions.Bounds

/-!
# What a check reports of loaded catalogs

A check asks again for much of what the reading of documents has granted, and of a catalog that was
built from documents it finds no violation of that. Its errors are texts with places in front of
them, so what an error is about is told by how it ends.

* `Findings.Err`: all errors of a check satisfy a statement. `Err.append` and its companions carry
  that through a check as it is put together.
* `Catalog.Explained`: an error says nothing of numbers, or it is about an effect that lacks the
  grade it is to create.
* `Catalog.err_check`: the errors of a catalog in bounds are explained.
* `Catalog.load_inBounds`: what documents add to a catalog is in bounds, and the errors of a catalog
  that was built from documents alone are about no bounds but for missing grades.
-/

namespace Treasury

/-! ## How texts end -/

/-- The character that a text ends with. -/
def lastChar? (t : String) : Option Char := t.toList.getLast?

/-- What stands in front of a text does not matter for its end. -/
theorem lastChar?_append {t : String} {ch : Char} (h : lastChar? t = some ch) (place : String) :
    lastChar? (place ++ t) = some ch := by
  unfold lastChar? at h ⊢
  rw [String.toList_append, List.getLast?_append, h]
  rfl

/-- Whether a text ends in another way than errors about numbers do, which end with a bound or a
list of numbers. -/
def isPlain (t : String) : Bool := (lastChar? t).any fun ch => ch ≠ '0' && ch ≠ ']'

theorem isPlain_append {t : String} (h : isPlain t = true) (place : String) :
    isPlain (place ++ t) = true := by
  unfold isPlain at h ⊢
  rw [Option.any_eq_true] at h ⊢
  obtain ⟨ch, hch, hplain⟩ := h
  exact ⟨ch, lastChar?_append hch place, hplain⟩

theorem isPlain_append_of_lastChar? {t : String} {ch : Char} (h : lastChar? t = some ch)
    (hch : ch = '0' ∨ ch = ']') (place : String) : isPlain (place ++ t) = false := by
  unfold isPlain
  rw [lastChar?_append h]
  rcases hch with rfl | rfl <;> rfl

/-! ## The errors of a check -/

namespace Findings

/-- All errors of a check satisfy a statement. -/
def Err (P : String → Prop) (f : Findings) : Prop := ∀ t ∈ f.errors, P t

namespace Err

variable {P Q : String → Prop} {f g : Findings}

theorem mono (h : ∀ t, P t → Q t) (hf : f.Err P) : f.Err Q := fun t ht => h t (hf t ht)

theorem append (hf : f.Err P) (hg : g.Err P) : (f ++ g).Err P :=
  List.forall_mem_append.mpr ⟨hf, hg⟩

theorem empty : Err P {} := List.forall_mem_nil P

theorem warningIf (condition : Bool) (text : String) : (warningIf condition text).Err P :=
  List.forall_mem_nil P

theorem errorIf {condition : Bool} {text : String} (h : condition = true → P text) :
    (errorIf condition text).Err P := by
  cases condition
  · exact List.forall_mem_nil P
  · exact List.forall_mem_singleton.mpr (h rfl)

theorem all {check : α → Findings} {items : List α} (h : ∀ a ∈ items, (check a).Err P) :
    (all check items).Err P := by
  intro t ht
  obtain ⟨a, ha, ht⟩ := List.mem_flatMap.mp ht
  exact h a ha t ht

/-- A place in front of the errors is allowed if the statement does not depend on it. -/
theorem within {place : String} (h : ∀ t, P t → P (place ++ t)) (hf : f.Err P) :
    (f.within place).Err P := by
  intro t ht
  obtain ⟨s, hs, rfl⟩ := List.mem_map.mp ht
  exact h s (hf s hs)

end Err

end Findings

open Findings

theorem Condition.err_check (c : Condition) : c.check.Err (isPlain · = true) := by
  unfold check
  split
  · exact .warningIf _ _
  · exact .errorIf fun _ => by decide

theorem ValueSource.err_check (s : ValueSource) (name : String) (target : TargetKind) :
    (s.check name target).Err (isPlain · = true) := by
  unfold check
  split
  · exact .warningIf _ _
  · exact .warningIf _ _
  · exact .errorIf fun _ => isPlain_append (by decide) _
  · exact .warningIf _ _
  · exact .empty

/-- A place of the ladder has a grade. -/
theorem Grade.isSome_atPlace? {n : Int} (h : 1 ≤ n ∧ n ≤ 7) : (atPlace? n).isSome = true := by
  obtain ⟨hlow, hhigh⟩ := h
  interval_cases n <;> decide

/-- The errors of an effect in bounds say nothing of numbers, but for the places of the ladder where
it lacks the grade it is to create. -/
theorem Effect.InBounds.err_check {e : Effect} (h : e.InBounds) (c : Catalog) :
    (e.check c).Err fun t => isPlain t = true ∨
      lastChar? t = some ']' ∧ e.kind = .known .createTempTreasure ∧ e.createGrade = none := by
  unfold check
  rcases e.kind with kind | word
  · refine .append (.append (.errorIf fun hmax => ?_) ?_) (.all fun s _ => ?_)
    · exact absurd (of_decide_eq_true hmax) (Int.not_lt.mpr h.maxTargets)
    · -- Only five kinds check more than their targets, and of these one error is excused.
      cases kind
      case createTempTreasure =>
        refine .errorIf fun hmissing => .inr ⟨lastChar?_append (by decide) _, rfl, ?_⟩
        rcases hgrade : e.createGrade with _ | n
        · rfl
        · have hplace := Grade.isSome_atPlace? (h.createGrade n hgrade)
          rw [hgrade, Option.bind_some, ← Option.not_isSome, hplace] at hmissing
          cases hmissing
      case gamble =>
        refine .errorIf fun hchance => ?_
        simp [h.successChance] at hchance
      case goldMultiplier => exact .errorIf fun _ => .inl (isPlain_append (by decide) _)
      case addCardToDeck =>
        unfold checkKind
        dsimp only
        split
        · exact .errorIf fun _ => .inl (isPlain_append (by decide) _)
        · exact .errorIf fun _ => .inl (isPlain_append (by decide) _)
      case removeCardFromDeck => exact .warningIf _ _
      case permanentUpgrade => exact .warningIf _ _
      all_goals exact .empty
    · exact (s.err_check _ _).mono fun _ hplain => .inl hplain
  · exact .warningIf _ _

namespace Catalog

/-- An error says nothing of numbers, or it ends with a list of them and is one of an effect of the
catalog that lacks the grade it is to create, with a place in front of it. -/
def Explained (c : Catalog) (t : String) : Prop :=
  isPlain t = true ∨ lastChar? t = some ']' ∧ ∃ e ∈ c.effects,
    e.kind = .known .createTempTreasure ∧ e.createGrade = none ∧
      ∃ place, ∃ s ∈ (e.check c).errors, t = place ++ s

variable {c : Catalog}

theorem Explained.within {t : String} (h : c.Explained t) (place : String) :
    c.Explained (place ++ t) := by
  obtain hplain | ⟨hlast, e, he, hkind, hgrade, front, s, hs, rfl⟩ := h
  · exact .inl (isPlain_append hplain place)
  · exact .inr ⟨lastChar?_append hlast place, e, he, hkind, hgrade, place ++ front, s, hs,
      String.append_assoc.symm⟩

/-- An error that is given with the end of its text is explained if this says nothing of numbers. -/
theorem explained_append {t : String} (h : isPlain t = true) (place : String) :
    c.Explained (place ++ t) :=
  .inl (isPlain_append h place)

theorem err_checkConditions (cs : List Condition) : (all Condition.check cs).Err c.Explained :=
  .all fun condition _ => condition.err_check.mono fun _ h => .inl h

/-- The errors of the groups of a catalog in bounds are explained. -/
theorem err_checkGroups (h : ∀ e ∈ c.effects, e.InBounds) {gs : List Group}
    (hgs : ∀ g ∈ gs, g ∈ c.groups) : (all (·.check c) gs).Err c.Explained := by
  refine .all fun g hg => .append (.append (err_checkConditions _) (.warningIf _ _)) ?_
  refine .all fun e he t ht => ?_
  have hmem : e ∈ c.effects := List.mem_flatMap.mpr ⟨g, hgs g hg, he⟩
  rcases (h e hmem).err_check c t ht with hplain | ⟨hlast, hkind, hgrade⟩
  · exact .inl hplain
  · exact .inr ⟨hlast, e, hmem, hkind, hgrade, "", t, ht, String.empty_append.symm⟩

theorem err_checkChoices (h : ∀ e ∈ c.effects, e.InBounds) {choices : List Choice}
    (hchoices : ∀ choice ∈ choices, ∀ g ∈ choice.effects, g ∈ c.groups) (seen : List String) :
    (Choice.checkAll c seen choices).Err c.Explained := by
  induction choices generalizing seen with
  | nil => exact .empty
  | cons first rest ih =>
    rw [List.forall_mem_cons] at hchoices
    have hgroups := err_checkGroups h hchoices.1
    exact .append (.append (.append (.errorIf fun _ => explained_append (by decide) _)
      (err_checkConditions _)) (.within (fun _ ht => ht.within _) hgroups)) (ih hchoices.2 _)

/-- The errors of a catalog in bounds are explained. -/
theorem err_check (h : ∀ e ∈ c.effects, e.InBounds) : c.check.Err c.Explained := by
  refine .append (.append (.all fun d hd => ?_) (.all fun ev hev => ?_)) (.warningIf _ _)
  · have hgroups := err_checkGroups h fun g (hg : g ∈ d.effects) =>
      List.mem_append_left _ (List.mem_flatMap.mpr ⟨d, hd, hg⟩)
    unfold CardDefinition.check
    refine .append (.append (.append (.append (.append (.append ?_ ?_) ?_) ?_) (.warningIf _ _))
      (.warningIf _ _)) (.within (fun _ ht => ht.within _) hgroups)
    · exact .errorIf fun _ => .inl (by decide)
    all_goals exact .errorIf fun _ => explained_append (by decide) _
  · -- The groups of an event are its own and those of its choices.
    have hmem (g : Group) (hg : g ∈ ev.effects ++ ev.choices.flatMap (·.effects)) : g ∈ c.groups :=
      List.mem_append_right _ (List.mem_flatMap.mpr ⟨ev, hev, hg⟩)
    have hgroups := err_checkGroups h fun g (hg : g ∈ ev.effects) =>
      hmem g (List.mem_append_left _ hg)
    have hchoices : (Choice.checkAll c [] ev.choices).Err c.Explained :=
      err_checkChoices h (fun choice hchoice g hg =>
        hmem g (List.mem_append_right _ (List.mem_flatMap.mpr ⟨choice, hchoice, hg⟩))) []
    refine .within (fun _ ht => ht.within _) (.append (.append (.append (.append (.append (.append
      ?_ ?_) (err_checkConditions _)) hgroups) hchoices) (.warningIf _ _)) (.warningIf _ _))
    · exact .errorIf fun _ => .inl (by decide)
    · exact .errorIf fun _ => explained_append (by decide) _

/-- Loading keeps all definitions in their bounds. What a document adds to a catalog is in bounds
wherever it stands in the document, and so is all of a catalog that was built from documents alone.
Whatever places stand in front of its errors, none of them is about a number of targets or a chance
out of range, and one about a grade to create is that of an effect without a grade. -/
theorem load_inBounds :
    (∀ (c u : Catalog) (j : Json), c.load j = .ok u →
      ∃ cards events, Document.Defines j cards events ∧ u = c.extended cards events ∧
        (∀ d ∈ cards, d.InBounds) ∧ ∀ ev ∈ events, ev.InBounds) ∧
    ∀ c : Catalog, c.Loaded → c.InBounds ∧ (∀ e ∈ c.effects, e.InBounds) ∧
      ∀ place : String,
        place ++ "max_targets must be >= 0" ∉ c.check.errors ∧
        place ++ "success_chance must be between 0 and 100" ∉ c.check.errors ∧
        (place ++ "create_grade must be one of [1, 2, 3, 4, 5, 6, 7]" ∈ c.check.errors →
          ∃ e ∈ c.effects, e.kind = .known .createTempTreasure ∧ e.createGrade = none ∧
            ∃ front, ∃ s ∈ (e.check c).errors,
              place ++ "create_grade must be one of [1, 2, 3, 4, 5, 6, 7]" = front ++ s) := by
  constructor
  · intro c u j h
    obtain ⟨cards, events, hdefines, rfl⟩ := exists_defines_of_load h
    exact ⟨cards, events, hdefines, rfl, hdefines.inBounds⟩
  · intro c hloaded
    have heffects : ∀ e ∈ c.effects, e.InBounds := fun e => hloaded.inBounds.of_mem_effects
    refine ⟨hloaded.inBounds, heffects, fun place => ?_⟩
    -- What ends with a list is explained by an effect, and nothing ends with a bound.
    have hlist {text : String} (htext : lastChar? text = some ']')
        (herror : place ++ text ∈ c.check.errors) :=
      ((err_check heffects _ herror).resolve_left
        (ne_true_of_eq_false (isPlain_append_of_lastChar? htext (.inr rfl) place))).2
    have hbound {text : String} (htext : lastChar? text = some '0') :
        place ++ text ∉ c.check.errors := by
      intro herror
      rcases err_check heffects _ herror with hplain | ⟨hlast, -⟩
      · rw [isPlain_append_of_lastChar? htext (.inl rfl)] at hplain
        cases hplain
      · rw [lastChar?_append htext] at hlast
        cases hlast
    exact ⟨hbound (by decide), hbound (by decide), hlist (by decide)⟩

/-- A gamble with its chance as a text is loaded, and so is a treasure to be created of no grade,
which is all that a check reports. -/
theorem load_inBounds_of_gamble :
    let gamble : Json := .obj [("kind", .str "gamble"), ("success_chance", .str "50"),
      ("success_value", .obj [("kind", .str "current_gold"), ("multiplier", .int 2)])]
    let treasure : Json := .obj [("kind", .str "create_temp_treasure"), ("max_targets", .int 1)]
    let j : Json := .obj [("cards", .arr [.obj [("id", .str "die"), ("name", .str "Die"),
      ("card_type", .str "action"),
      ("effects", .arr [.obj [("effects", .arr [gamble]), ("else_effects", .arr [treasure])]])]])]
    ∃ u : Catalog, ({} : Catalog).load j = .ok u ∧ u.Loaded ∧ u.effects.length = 2 ∧
      (∀ e ∈ u.effects, e.InBounds) ∧
      (∃ cards events, Document.Defines j cards events ∧ ∀ d ∈ cards, d.InBounds) ∧
      u.check.errors = ["Card 'die': create_temp_treasure: " ++
        "create_grade must be one of [1, 2, 3, 4, 5, 6, 7]"] := by
  intro gamble treasure j
  obtain ⟨u, hload, hlength, herrors⟩ : ∃ u, ({} : Catalog).load j = .ok u ∧
      u.effects.length = 2 ∧ u.check.errors = ["Card 'die': create_temp_treasure: " ++
        "create_grade must be one of [1, 2, 3, 4, 5, 6, 7]"] := by
    refine ⟨_, rfl, ?_, ?_⟩ <;> decide +kernel
  have hloaded : u.Loaded := .load .empty hload
  obtain ⟨cards, events, hdefines, -, hcards, -⟩ := load_inBounds.1 {} u j hload
  exact ⟨u, hload, hloaded, hlength, (load_inBounds.2 u hloaded).2.1,
    ⟨cards, events, hdefines, hcards⟩, herrors⟩

end Catalog

end Treasury
