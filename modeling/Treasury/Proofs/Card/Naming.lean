import Treasury.Card.Grade
import Treasury.Proofs.Text.Capitals

/-!
# Names of grades

A text is read as a grade by its key, which is the text without the blanks around it and in lower
case. The id of a card is compared with the key, and the name of a grade with the capitals of the
key. As a long s and a dotless i have the capitals of an s and an i, a key with one of them in place
of the letter is read as the name too.

* `Grade.NamedBy`: a key is the name of a grade or the id of its card.
* `Grade.MistakenFor`: a key is read as the name of a grade without being it.
* `Grade.read_text_iff`: which texts are read as which grade.
-/

namespace Treasury.Grade

/-- A text without the blanks around it and in lower case. -/
def key (text : String) : String := Text.lower (.ofList (Text.trim Text.isBlank text.toList))

/-- A key is the name of a grade or the id of its card. -/
def NamedBy (g : Grade) (key : String) : Prop := key = g.name ∨ key = g.cardId

/-- A key is not the name of a grade, but becomes it with small letters for a long s and a
dotless i. -/
def MistakenFor (g : Grade) (key : String) : Prop :=
  key ≠ g.name ∧ key.toList.map Text.plain = g.name.toList

instance (g : Grade) : DecidablePred g.NamedBy := fun _ => inferInstanceAs (Decidable (_ ∨ _))

instance (g : Grade) : DecidablePred g.MistakenFor := fun _ => inferInstanceAs (Decidable (_ ∧ _))

theorem mem_all (g : Grade) : g ∈ all := by
  cases g <;> decide

theorem cardId_injective : Function.Injective cardId := by
  intro g h
  cases g <;> cases h <;> simp [cardId]

theorem capitalName_injective : Function.Injective capitalName := by
  intro g h
  cases g <;> cases h <;> simp [capitalName]

/-- The first grade of an id or of a name is the only one. -/
theorem find?_all_eq_some_iff {word : Grade → String} (h : Function.Injective word) (s : String)
    (g : Grade) : all.find? (word · = s) = some g ↔ s = word g := by
  constructor
  · intro hfound
    have := List.find?_some hfound
    simpa [eq_comm] using this
  · rintro rfl
    cases hfound : all.find? (word · = word g) with
    | none =>
      have := List.find?_eq_none.mp hfound g g.mem_all
      simp at this
    | some g' =>
      have := List.find?_some hfound
      rw [decide_eq_true_eq] at this
      rw [h this]

/-- A name consists of small letters, no two or three of which are the upper case of a single
character, and its capitals are those of the letters. -/
theorem name_spelled (g : Grade) : g.name.toList.all Char.isLower ∧
    Text.Unjoined g.name.toList ∧ g.name.toList.map Char.toUpper = g.capitalName.toList := by
  cases g <;> decide +kernel

/-- The capitals of a key are those of the name of a grade exactly if the key is that name, but for
letters that others stand in for. -/
theorem upper_key_eq_iff (text : String) (g : Grade) :
    Text.upper (key text) = g.capitalName ↔ (key text).toList.map Text.plain = g.name.toList := by
  obtain ⟨hsmall, hjoin, hcapitals⟩ := g.name_spelled
  have hkey : ∀ c ∈ (key text).toList, c.isUpper = false := fun _ => Text.isUpper_of_mem_lower
  have hletters := Text.flatMap_upperOf_eq_iff hkey (List.all_eq_true.mp hsmall) hjoin
  rw [← hletters, hcapitals, Text.upper, ← String.toList_inj, String.toList_ofList]

/-- A name has no letters that stand in for others. -/
theorem map_plain_name (g : Grade) : g.name.toList.map Text.plain = g.name.toList := by
  cases g <;> decide +kernel

/-- The id of a card is not mistaken for the name of another grade. -/
theorem eq_of_map_plain_cardId {g h : Grade}
    (heq : g.cardId.toList.map Text.plain = h.name.toList) : g = h := by
  revert heq
  cases g <;> cases h <;> decide +kernel

/-- A text is read as the grade whose card has the key as its id, or else as the one whose name has
the capitals of the key. -/
theorem read_text_eq (text : String) :
    read (.text text) =
      match (all.find? (cardId · = key text)).or
        (all.find? (capitalName · = Text.upper (key text))) with
      | some g => .ok g
      | none => .error (.noSuchName text) := by
  rw [read, ofText, ← key]
  cases all.find? (cardId · = key text) with
  | some g => rfl
  | none =>
    cases all.find? (capitalName · = Text.upper (key text)) with
    | some g => rfl
    | none => rfl

/-- A text is read as a grade exactly if its key is the id of the card of the grade, or its name but
for letters that others stand in for. -/
theorem read_text_eq_ok_iff (text : String) (g : Grade) :
    read (.text text) = .ok g ↔
      key text = g.cardId ∨ (key text).toList.map Text.plain = g.name.toList := by
  have hid := find?_all_eq_some_iff cardId_injective (key text)
  have hname := find?_all_eq_some_iff capitalName_injective (Text.upper (key text)) g
  rw [upper_key_eq_iff] at hname
  rw [read_text_eq]
  cases hfirst : all.find? (cardId · = key text) with
  | some h =>
    -- The key is the id of a card, and so is not mistaken for the name of another grade.
    have hkey := (hid h).mp hfirst
    rw [Option.some_or, hkey, Except.ok.injEq, cardId_injective.eq_iff]
    exact ⟨.inl, fun heq => heq.elim id eq_of_map_plain_cardId⟩
  | none =>
    have hnone : key text ≠ g.cardId := fun hkey => by
      rw [(hid g).mpr hkey] at hfirst
      cases hfirst
    rw [Option.none_or, or_iff_right hnone, ← hname]
    cases all.find? (capitalName · = Text.upper (key text)) with
    | some h => simp only [Except.ok.injEq, Option.some.injEq]
    | none => exact iff_of_false nofun nofun

/-- What is read as no grade is refused by its own words. -/
theorem read_text_eq_error (text : String) (h : ∀ g, read (.text text) ≠ .ok g) :
    read (.text text) = .error (.noSuchName text) := by
  rw [read_text_eq] at h ⊢
  split
  · next g hfound =>
    rw [hfound] at h
    exact absurd rfl (h g)
  · rfl

/-! ## Exact names -/

/-- A key that is mistaken for the name of a grade is neither that name nor the id of its card. -/
theorem MistakenFor.not_namedBy {g : Grade} {key : String} (h : g.MistakenFor key) :
    ¬ g.NamedBy key := by
  rintro (hname | hid)
  · exact h.1 hname
  · -- All ids but that of the gold coin are names, and that one is not mistaken for a name.
    obtain ⟨hne, hplain⟩ := h
    subst hid
    revert hne hplain
    cases g <;> decide +kernel

/-- The name of a grade is a key that stays as it is with small letters for a long s and a
dotless i. -/
theorem namedBy_or_mistakenFor_iff {g : Grade} {key : String} :
    g.NamedBy key ∨ g.MistakenFor key ↔
      key = g.cardId ∨ key.toList.map Text.plain = g.name.toList := by
  unfold NamedBy MistakenFor
  have hname : key = g.name → key.toList.map Text.plain = g.name.toList := by
    rintro rfl
    exact g.map_plain_name
  tauto

/-- A text is read by the exact names: as the grade that its key names, and as none if it names
none. -/
def ReadExactly (text : String) : Prop :=
  (∀ g, read (.text text) = .ok g ↔ g.NamedBy (key text)) ∧
    ((∀ g : Grade, ¬ g.NamedBy (key text)) → read (.text text) = .error (.noSuchName text))

/-- A text is read as a grade exactly if its key names the grade or is mistaken for its name, and is
refused by its own words if there is no such grade. So it is read by the exact names if and only if
its key is not mistaken for one of them. -/
theorem read_text_iff (text : String) :
    (∀ g, read (.text text) = .ok g ↔ g.NamedBy (key text) ∨ g.MistakenFor (key text)) ∧
      ((∀ g : Grade, ¬ g.NamedBy (key text) ∧ ¬ g.MistakenFor (key text)) →
        read (.text text) = .error (.noSuchName text)) ∧
      (ReadExactly text ↔ ∀ g : Grade, ¬ g.MistakenFor (key text)) := by
  have hread (g : Grade) :
      read (.text text) = .ok g ↔ g.NamedBy (key text) ∨ g.MistakenFor (key text) :=
    (read_text_eq_ok_iff text g).trans namedBy_or_mistakenFor_iff.symm
  have hrefused (h : ∀ g : Grade, ¬ g.NamedBy (key text) ∧ ¬ g.MistakenFor (key text)) :
      read (.text text) = .error (.noSuchName text) :=
    read_text_eq_error text fun g hg => not_or.mpr (h g) ((hread g).mp hg)
  refine ⟨hread, hrefused, fun h g hg => ?_, fun h => ⟨fun g => ?_, fun hnone => ?_⟩⟩
  · exact hg.not_namedBy ((h.1 g).mp ((hread g).mpr (.inr hg)))
  · rw [hread, or_iff_left (h g)]
  · exact hrefused fun g => ⟨hnone g, h g⟩

/-- A long s in place of the s of silver is read as silver, though such a key is neither the name of
a grade nor the id of a card. -/
theorem read_text_of_long_s :
    read (.text "ſilver") = .ok silver ∧ (∀ g : Grade, ¬ g.NamedBy (key "ſilver")) ∧
      ¬ ReadExactly "ſilver" := by
  have hsilver : read (.text "ſilver") = .ok silver := by decide +kernel
  have hkey : key "ſilver" = "ſilver" := by decide +kernel
  have hnone (g : Grade) : ¬ g.NamedBy (key "ſilver") := by
    rw [hkey]
    cases g <;> decide
  exact ⟨hsilver, hnone, fun h => hnone silver ((h.1 silver).mp hsilver)⟩

end Treasury.Grade
