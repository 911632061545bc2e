import Treasury.Definitions.Document

/-!
# Documents that are accepted

A document is accepted if all its parts are. What holds of a part whenever it is accepted is carried
through the readers to the whole (`Checked.Ensures`), and so it is with grades: one that was
accepted can be read again. The drafts of an accepted document therefore become definitions.

* `Field.listOf_eq_good_iff`: a list is accepted if every item is, whatever its place.
* `Document.ensures_grade`: a grade that is accepted can be read.
* `Document.ensures_ofJson`: the drafts of a document that is accepted become definitions.
-/

namespace Treasury

namespace Checked

variable {α β : Type} {x : Checked α} {a : α}

/-- What was checked satisfies a statement if it is good. -/
def Ensures (P : α → Prop) (x : Checked α) : Prop := ∀ a, x = .good a → P a

theorem map_eq_good_iff {f : α → β} {b : β} : f <$> x = .good b ↔ ∃ a, x = .good a ∧ f a = b := by
  change map f x = _ ↔ _
  cases x <;> simp [map]

theorem seq_eq_good_iff {f : Checked (α → β)} {b : β} :
    f <*> x = .good b ↔ ∃ g a, f = .good g ∧ x = .good a ∧ g a = b := by
  change seq f x = _ ↔ _
  cases f <;> cases x <;> simp [seq]

/-- A part of the whole is good if it is so by itself. -/
@[simp]
theorem under_eq_good_iff {step : Step} : x.under step = .good a ↔ x = .good a := by
  cases x <;> simp [under]

namespace Ensures

variable {P : β → Prop} {Q : α → Prop} {f : Checked (α → β)}

theorem map {g : α → β} (h : ∀ a, Q a → P (g a)) (hx : Ensures Q x) : Ensures P (g <$> x) := by
  intro b hb
  obtain ⟨a, ha, rfl⟩ := map_eq_good_iff.mp hb
  exact h a (hx a ha)

/-- What is made of anything at all satisfies the statement. -/
theorem skip_map {g : α → β} (h : ∀ a, P (g a)) : Ensures P (g <$> x) :=
  map (Q := fun _ => True) (fun a _ => h a) fun _ _ => trivial

/-- The statement about the whole needs one about a part. -/
theorem seq (hf : Ensures (fun g => ∀ a, Q a → P (g a)) f) (hx : Ensures Q x) :
    Ensures P (f <*> x) := by
  intro b hb
  obtain ⟨g, a, hg, ha, rfl⟩ := seq_eq_good_iff.mp hb
  exact hf g hg a (hx a ha)

/-- The statement about the whole needs nothing of a part. -/
theorem skip (hf : Ensures (fun g => ∀ a, P (g a)) f) : Ensures P (f <*> x) := by
  intro b hb
  obtain ⟨g, a, hg, -, rfl⟩ := seq_eq_good_iff.mp hb
  exact hf g hg a

end Ensures

end Checked

namespace Field

variable {α : Type} {read : Json → Checked α} {P : α → Prop} {o : Members} {name : String}

/-- A list is good if its items are, whatever their places. -/
theorem listOf_eq_good_iff {items : List Json} {as : List α} :
    listOf read (.arr items) = .good as ↔ items.map read = as.map .good := by
  rw [listOf, Checked.list_eq_good_iff]
  -- Places are counted from anywhere in the rest of a list.
  generalize 0 = place
  induction items generalizing as place with
  | nil => exact Iff.rfl
  | cons j rest ih =>
    cases as with
    | nil => simp
    | cons a as => simp [ih]

theorem ensures_listOf (h : ∀ j, (read j).Ensures P) (j : Json) :
    (listOf read j).Ensures (∀ a ∈ ·, P a) := by
  intro as has
  cases j with
  | arr items =>
    intro a ha
    have hgood : .good a ∈ items.map read := by
      rw [listOf_eq_good_iff.mp has]
      exact List.mem_map_of_mem ha
    obtain ⟨j, -, hj⟩ := List.mem_map.mp hgood
    exact h j a hj
  | _ => cases has

theorem ensures_orNull (h : ∀ j, (read j).Ensures P) (j : Json) :
    (orNull read j).Ensures (∀ a ∈ ·, P a) := by
  intro given hgiven a ha
  unfold orNull at hgiven
  split at hgiven
  · cases hgiven
    cases ha
  · obtain ⟨b, hb, rfl⟩ := Checked.map_eq_good_iff.mp hgiven
    obtain rfl := Option.mem_some.mp ha
    exact h _ _ hb

theorem ensures_object {ofMembers : Members → Checked α} (h : ∀ o, (ofMembers o).Ensures P)
    (j : Json) : (object name ofMembers j).Ensures P := by
  cases j with
  | obj members => exact h members
  | _ => exact fun _ ha => nomatch ha

theorem ensures_optional {default : α} (h : ∀ j, (read j).Ensures P) (hdefault : P default) :
    (optional o name read default).Ensures P := by
  intro a ha
  unfold optional at ha
  split at ha
  · exact h _ a (Checked.under_eq_good_iff.mp ha)
  · cases ha
    exact hdefault

/-- The items that a member of an object lists, none if it is absent. What is no list has none. -/
def listed? (o : Members) (name : String) : Option (List Json) :=
  match o.lookup name with
  | none => some []
  | some (.arr items) => some items
  | some _ => none

/-- A member that lists items, if it is there, is good if the items are. -/
theorem optional_listOf_eq_good_iff {items : List Json} {as : List α}
    (h : listed? o name = some items) :
    optional o name (listOf read) [] = .good as ↔ items.map read = as.map .good := by
  unfold listed? at h
  unfold optional
  split at h
  · next hnone =>
    cases h
    rw [hnone]
    cases as <;> simp
  · next hsome =>
    cases h
    rw [hsome, Checked.under_eq_good_iff, listOf_eq_good_iff]
  · cases h

end Field

/-! ## Reading without errors -/

/-- What is read without an error. -/
def Readable {ε α : Type} (x : Except ε α) : Prop := ∃ a, x = .ok a

namespace Readable

variable {ε α β : Type} {x : Except ε α} {f : α → Except ε β}

theorem bind (hx : Readable x) (hf : ∀ a, Readable (f a)) : Readable (x >>= f) := by
  obtain ⟨a, rfl⟩ := hx
  exact hf a

theorem mapM {as : List α} (h : ∀ a ∈ as, Readable (f a)) : Readable (as.mapM f) := by
  induction as with
  | nil => exact ⟨[], rfl⟩
  | cons a rest ih =>
    rw [List.forall_mem_cons] at h
    rw [List.mapM_cons]
    exact h.1.bind fun b => (ih h.2).bind fun bs => ⟨b :: bs, rfl⟩

theorem mapM_option {given : Option α} (h : ∀ a ∈ given, Readable (f a)) :
    Readable (given.mapM f) := by
  cases given with
  | none => exact ⟨none, rfl⟩
  | some a =>
    obtain ⟨b, hb⟩ := h a rfl
    exact ⟨some b, by rw [Option.mapM_some, hb]; rfl⟩

end Readable

/-! ## Grades that are read twice -/

/-- A draft of an effect becomes an effect if its grade can be read. -/
theorem EffectDraft.readable {d : EffectDraft}
    (h : ∀ raw ∈ d.grade, Readable (Grade.read raw)) : Readable d.read :=
  (Readable.mapM_option h).bind fun _ => ⟨_, rfl⟩

theorem GroupDraft.readable {d : GroupDraft} (h : ∀ e ∈ d.effects, Readable e.read)
    (helse : ∀ e ∈ d.elseEffects, Readable e.read) : Readable d.read :=
  (Readable.mapM h).bind fun _ => (Readable.mapM helse).bind fun _ => ⟨_, rfl⟩

theorem CardDraft.readable {d : CardDraft} (h : ∀ raw ∈ d.grade, Readable (Grade.read raw))
    (heffects : ∀ g ∈ d.effects, Readable g.read) : Readable d.read :=
  (Readable.mapM_option h).bind fun _ => (Readable.mapM heffects).bind fun _ => ⟨_, rfl⟩

theorem ChoiceDraft.readable {d : ChoiceDraft} (h : ∀ g ∈ d.effects, Readable g.read) :
    Readable d.read :=
  (Readable.mapM h).bind fun _ => ⟨_, rfl⟩

theorem EventDraft.readable {d : EventDraft} (h : ∀ g ∈ d.effects, Readable g.read)
    (hchoices : ∀ c ∈ d.choices, Readable c.read) : Readable d.read :=
  (Readable.mapM h).bind fun _ => (Readable.mapM hchoices).bind fun _ => ⟨_, rfl⟩

namespace Document

open Treasury.Field

theorem ensures_keptGrade (raw : Grade.Raw) :
    (keptGrade raw).Ensures fun raw => Readable (Grade.read raw) := by
  intro kept hkept
  unfold keptGrade at hkept
  split at hkept
  · next g hg =>
    cases hkept
    exact ⟨g, hg⟩
  · cases hkept

/-- A grade is accepted if it can be read, and it is kept as it is given. -/
theorem ensures_grade (j : Json) : (grade j).Ensures fun raw => Readable (Grade.read raw) := by
  unfold grade
  split
  · exact ensures_keptGrade _
  · split
    · exact ensures_keptGrade _
    · exact fun _ ha => nomatch ha

theorem ensures_effect (j : Json) : (effect j).Ensures fun d => Readable d.read := by
  refine ensures_object (fun o => ?_) j
  -- Of all members the sixth is the one that matters.
  refine .skip <| .skip <| .skip <| .skip <| .skip <| .skip <| .skip <| .seq
    (.skip <| .skip <| .skip <| .skip <|
      .skip_map fun _ _ _ _ _ grade hgrade _ _ _ _ _ _ _ => ?_)
    (ensures_optional (ensures_orNull ensures_grade) fun _ h => nomatch h)
  exact EffectDraft.readable hgrade

theorem ensures_group (j : Json) : (group j).Ensures fun d => Readable d.read := by
  refine ensures_object (fun o => ?_) j
  have heffects (name : String) : (optional o name (listOf effect) []).Ensures
      (∀ d ∈ ·, Readable d.read) :=
    ensures_optional (ensures_listOf ensures_effect) (List.forall_mem_nil _)
  exact .seq (.seq (.skip_map fun _ _ h _ helse => GroupDraft.readable h helse) (heffects _))
    (heffects _)

/-- The groups of a card, an event or an option are in one member. -/
theorem ensures_groups (o : Members) (name : String) :
    (optional o name (listOf group) []).Ensures (∀ d ∈ ·, Readable d.read) :=
  ensures_optional (ensures_listOf ensures_group) (List.forall_mem_nil _)

theorem ensures_card (j : Json) : (card j).Ensures fun d => Readable d.read := by
  refine ensures_object (fun o => ?_) j
  -- The grade and the effects matter, with two members between them.
  refine .seq (.skip <| .skip <| .seq
    (.skip <| .skip <| .skip <| .skip <|
      .skip_map fun _ _ _ _ _ grade hgrade _ _ effects heffects => ?_)
    (ensures_optional (ensures_orNull ensures_grade) fun _ h => nomatch h)) (ensures_groups o _)
  exact CardDraft.readable hgrade heffects

theorem ensures_choice (j : Json) : (choice j).Ensures fun d => Readable d.read := by
  refine ensures_object (fun o => ?_) j
  exact .seq (.skip <| .skip <| .skip_map fun _ _ _ _ h => ChoiceDraft.readable h)
    (ensures_groups o _)

theorem ensures_event (j : Json) : (event j).Ensures fun d => Readable d.read := by
  refine ensures_object (fun o => ?_) j
  refine .seq (.seq (.skip <| .skip <| .skip <| .skip <|
    .skip_map fun _ _ _ _ _ effects heffects choices hchoices => ?_) (ensures_groups o _))
    (ensures_optional (ensures_listOf ensures_choice) (List.forall_mem_nil _))
  exact EventDraft.readable heffects hchoices

/-- The drafts of a document that is accepted become definitions. -/
theorem ensures_ofJson (j : Json) : (ofJson j).Ensures fun d =>
    Readable (d.cards.mapM CardDraft.read) ∧ Readable (d.events.mapM EventDraft.read) := by
  refine ensures_object (fun o => ?_) j
  exact .seq (.map (fun _ hcards _ hevents => ⟨.mapM hcards, .mapM hevents⟩)
    (ensures_optional (ensures_listOf ensures_card) (List.forall_mem_nil _)))
    (ensures_optional (ensures_listOf ensures_event) (List.forall_mem_nil _))

end Document

end Treasury
