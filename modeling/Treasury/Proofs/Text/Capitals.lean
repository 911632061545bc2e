import Mathlib
import Treasury.Text.Case

/-!
# Latin letters and case mappings

Lower case leaves no Latin capital in a text, and upper case makes one of every small Latin letter.
It also makes one of two characters that are neither: the long s and the dotless i are their own
lower case, while their upper cases are S and I. So a text in lower case is not told by its upper
case alone.

* `Text.isUpper_of_mem_lower`: lower case has no Latin capitals.
* `Text.plain`: the small letter in place of a long s or a dotless i.
* `Text.flatMap_upperOf_eq_iff`: which texts without capitals have the capitals of a given word as
  their upper case.
-/

namespace Treasury.Text

/-- The small letter in place of a long s or a dotless i. -/
def plain (c : Char) : Char :=
  if c = 'ſ' then 's' else if c = 'ı' then 'i' else c

/-! ## Letters by their numbers -/

theorem isUpper_iff {c : Char} : c.isUpper ↔ 0x41 ≤ c.toNat ∧ c.toNat ≤ 0x5a := by
  simp [Char.isUpper, UInt32.le_iff_toNat_le]

theorem isLower_iff {c : Char} : c.isLower ↔ 0x61 ≤ c.toNat ∧ c.toNat ≤ 0x7a := by
  simp [Char.isLower, UInt32.le_iff_toNat_le]

theorem isUpper_toUpper {c : Char} (h : c.isLower) : c.toUpper.isUpper := by
  simp [Char.isAlpha, h]

/-- The number of a capital is below that of its small letter by 32. -/
theorem toNat_toUpper {c : Char} (h : c.isLower) : c.toUpper.toNat + 32 = c.toNat := by
  have hrange := isLower_iff.mp h
  have hvalid : (c.toNat - 32).isValidChar := .inl (by omega)
  rw [Char.toUpper_eq_of_isLower h, Char.toNat_ofNat, if_pos hvalid]
  omega

/-! ## Runs of characters -/

/-- What a run shifts lies in it, and lands at its distance. -/
theorem CaseRun.of_shift?_eq_some {r : CaseRun} {n k : Nat} (h : r.shift? n = some k) :
    r.first ≤ n ∧ n ≤ r.last ∧ k = ((n : Int) + r.shift).toNat := by
  simp only [shift?, Option.ite_none_right_eq_some, Bool.and_eq_true, decide_eq_true_eq,
    Option.some.injEq] at h
  exact ⟨h.1.1.1, h.1.1.2, h.2.symm⟩

/-- What is shifted to a capital is that capital and in no run, or is in a run that goes there. -/
theorem cases_of_isUpper_shifted {runs : List CaseRun} {c : Char}
    (h : (shifted runs c).isUpper) :
    ((∀ r ∈ runs, r.shift? c.toNat = none) ∧ shifted runs c = c) ∨
      ∃ r ∈ runs, r.shift? c.toNat = some (shifted runs c).toNat := by
  unfold shifted at h ⊢
  cases hfound : runs.findSome? (·.shift? c.toNat) with
  | none => exact .inl ⟨List.findSome?_eq_none_iff.mp hfound, rfl⟩
  | some n =>
    rw [hfound] at h
    obtain ⟨r, hr, hshift⟩ := List.exists_of_findSome?_eq_some hfound
    -- A number that is none of a character would stand for the zero character, which is no letter.
    have hnumber : (Char.ofNat n).toNat = n := by
      rw [isUpper_iff, Char.toNat_ofNat] at h
      rw [Char.toNat_ofNat]
      split
      · rfl
      · next hinvalid =>
        rw [if_neg hinvalid] at h
        omega
    exact .inr ⟨r, hr, hshift.trans (congrArg some hnumber.symm)⟩

/-! ## Lower case -/

/-- Every capital is in a run of those with a lower case, and none of these runs goes to one. -/
theorem isUpper_shifted_lowerRuns (c : Char) : (shifted lowerRuns c).isUpper = false := by
  refine Bool.eq_false_iff.mpr fun h => ?_
  obtain ⟨hnone, hself⟩ | ⟨r, hr, hshift⟩ := cases_of_isUpper_shifted h
  · rw [hself, isUpper_iff] at h
    have hfirst := hnone ⟨0x41, 0x5a, 1, 32⟩ List.mem_cons_self
    simp [CaseRun.shift?, Nat.mod_one, h.1, h.2] at hfirst
  · have hbeyond : ∀ r ∈ lowerRuns, 0x5a < (r.first : Int) + r.shift := by decide +kernel
    obtain ⟨hlow, -, hlands⟩ := CaseRun.of_shift?_eq_some hshift
    have := hbeyond r hr
    have := (isUpper_iff.mp h).2
    omega

theorem isUpper_of_mem_lowerAt {before after : List Char} {c d : Char}
    (h : d ∈ lowerAt before after c) : d.isUpper = false := by
  unfold lowerAt at h
  split at h
  · split at h
    · cases List.mem_singleton.mp h
      decide
    · cases List.mem_singleton.mp h
      decide
  · split at h
    · simp only [List.mem_cons, List.not_mem_nil, or_false] at h
      obtain rfl | rfl := h <;> decide
    · cases List.mem_singleton.mp h
      exact isUpper_shifted_lowerRuns c

/-- Lower case has no Latin capitals. -/
theorem isUpper_of_mem_lower {s : String} {d : Char} (h : d ∈ (lower s).toList) :
    d.isUpper = false := by
  have hall : ∀ before cs, d ∈ lowerAfter before cs → d.isUpper = false := by
    intro before cs
    induction cs generalizing before with
    | nil => exact fun h => nomatch h
    | cons c rest ih =>
      intro h
      rcases List.mem_append.mp h with h | h
      · exact isUpper_of_mem_lowerAt h
      · exact ih (c :: before) h
  rw [lower, String.toList_ofList] at h
  exact hall [] s.toList h

/-! ## Upper case -/

/-- The runs that go to capitals are those of the small letters, the dotless i and the long s. -/
theorem upperRuns_to_capitals : ∀ r ∈ upperRuns, 0x5a < (r.first : Int) + r.shift ∨
    (r.first, r.last, r.shift) ∈
      [(0x61, 0x7a, -32), (0x131, 0x131, -232), (0x17f, 0x17f, -300)] := by
  decide +kernel

/-- An upper case of several characters is of two at least, and no small letter has one. -/
theorem of_mem_upperExpansions : ∀ p ∈ upperExpansions, 0x7a < p.1 ∧ 2 ≤ p.2.length := by
  decide +kernel

/-- The upper case of a character is in the one table, or made by the other. -/
theorem upperOf_cases (c : Char) :
    (∃ p ∈ upperExpansions, upperOf c = p.2.map Char.ofNat) ∨
      upperOf c = [shifted upperRuns c] := by
  unfold upperOf
  split
  · next ns hfound =>
    obtain ⟨before, after, hmem, -⟩ := List.lookup_eq_some_iff.mp hfound
    exact .inl ⟨(c.toNat, ns), by simp [hmem], rfl⟩
  · exact .inr rfl

/-- The upper case of a small letter is its capital. -/
theorem upperOf_of_isLower {l : Char} (h : l.isLower) : upperOf l = [l.toUpper] := by
  have hrange := isLower_iff.mp h
  -- No letter of the alphabet expands to several.
  have hlookup : upperExpansions.lookup l.toNat = none := by
    rw [List.lookup_eq_none_iff]
    intro p hp
    have := (of_mem_upperExpansions p hp).1
    exact bne_iff_ne.mpr (by omega)
  have hfirst : upperRuns.findSome? (·.shift? l.toNat) = some (l.toNat - 32) := by
    rw [show upperRuns = ⟨0x61, 0x7a, 1, -32⟩ :: upperRuns.tail from rfl, List.findSome?_cons]
    simp only [CaseRun.shift?, hrange.1, hrange.2, Nat.mod_one, decide_true, Bool.and_self,
      beq_self_eq_true, if_true]
    congr 1
    omega
  rw [upperOf, hlookup]
  dsimp only
  rw [shifted, hfirst, Char.toUpper_eq_of_isLower h]

/-- A character that is no capital is shifted to one from its small letter, from the dotless i or
from the long s. -/
theorem cases_of_shifted_upperRuns {c d : Char} (hc : c.isUpper = false) (hd : d.isUpper)
    (h : shifted upperRuns c = d) :
    (c.isLower ∧ c.toNat = d.toNat + 32) ∨ (c = 'ı' ∧ d = 'I') ∨ (c = 'ſ' ∧ d = 'S') := by
  subst h
  obtain ⟨-, hself⟩ | ⟨r, hr, hshift⟩ := cases_of_isUpper_shifted hd
  · rw [hself, hc] at hd
    cases hd
  · obtain ⟨hlow, hhigh, hlands⟩ := CaseRun.of_shift?_eq_some hshift
    have hcapital := isUpper_iff.mp hd
    generalize shifted upperRuns c = d at *
    -- Of all runs of the table only three end among the capital letters.
    obtain hbeyond | hrun := upperRuns_to_capitals r hr
    · omega
    · simp only [List.mem_cons, Prod.mk.injEq, List.not_mem_nil, or_false] at hrun
      obtain ⟨hfirst, hlast, hdistance⟩ | ⟨hfirst, hlast, hdistance⟩ |
        ⟨hfirst, hlast, hdistance⟩ := hrun
      · exact .inl ⟨isLower_iff.mpr (by omega), by omega⟩
      · refine .inr (.inl ⟨Char.toNat_inj.mp ?_, Char.toNat_inj.mp ?_⟩)
        · change c.toNat = 0x131
          omega
        · change d.toNat = 0x49
          omega
      · refine .inr (.inr ⟨Char.toNat_inj.mp ?_, Char.toNat_inj.mp ?_⟩)
        · change c.toNat = 0x17f
          omega
        · change d.toNat = 0x53
          omega

theorem plain_of_isLower {c : Char} (h : c.isLower) : plain c = c := by
  unfold plain
  split
  · next hlong => exact absurd h (by rw [hlong]; decide)
  · split
    · next hdotless => exact absurd h (by rw [hdotless]; decide)
    · rfl

/-- Among the characters that are no capitals, only a small letter and what stands in for it have a
given capital as their upper case. -/
theorem upperOf_eq_singleton_iff {c l : Char} (hc : c.isUpper = false) (hl : l.isLower) :
    upperOf c = [l.toUpper] ↔ plain c = l := by
  have hnumber := toNat_toUpper hl
  constructor
  · intro h
    obtain ⟨p, hp, hmany⟩ | hone := upperOf_cases c
    · -- A letter that expands to several has no single capital.
      have htwo := (of_mem_upperExpansions p hp).2
      have hlength := congrArg List.length (hmany.symm.trans h)
      rw [List.length_map, List.length_singleton] at hlength
      omega
    · rw [hone, List.singleton_inj] at h
      obtain ⟨hlower, hsmall⟩ | ⟨rfl, hcapital⟩ | ⟨rfl, hcapital⟩ :=
        cases_of_shifted_upperRuns hc (isUpper_toUpper hl) h
      · rw [plain_of_isLower hlower]
        exact Char.toNat_inj.mp (hsmall.trans hnumber)
      · rw [hcapital] at hnumber
        exact Char.toNat_inj.mp hnumber
      · rw [hcapital] at hnumber
        exact Char.toNat_inj.mp hnumber
  · rintro rfl
    unfold plain at hl ⊢
    split
    · next hlong =>
      rw [hlong]
      decide +kernel
    · split
      · next hdotless =>
        rw [hdotless]
        decide +kernel
      · next hlong hdotless =>
        rw [if_neg hlong, if_neg hdotless] at hl
        exact upperOf_of_isLower hl

/-- Of a word of small letters, no two or three in a row are the upper case of a single
character. -/
def Unjoined (word : List Char) : Prop :=
  ∀ p ∈ upperExpansions, ¬ p.2.map Char.ofNat <:+: word.map Char.toUpper

instance : DecidablePred Unjoined := fun _ => List.decidableBAll _ _

theorem Unjoined.tail {l : Char} {word : List Char} (h : Unjoined (l :: word)) : Unjoined word :=
  fun p hp hwithin => h p hp (hwithin.trans (List.suffix_cons _ _).isInfix)

/-- A text without capitals has the capitals of a word as its upper case exactly if it is that word,
but for letters that others stand in for. -/
theorem flatMap_upperOf_eq_iff {cs word : List Char} (hcs : ∀ c ∈ cs, c.isUpper = false)
    (hword : ∀ l ∈ word, l.isLower) (hjoin : Unjoined word) :
    cs.flatMap upperOf = word.map Char.toUpper ↔ cs.map plain = word := by
  induction cs generalizing word with
  | nil => simp [eq_comm]
  | cons c rest ih =>
    rw [List.forall_mem_cons] at hcs
    rw [List.flatMap_cons, List.map_cons]
    cases word with
    | nil =>
      refine iff_of_false (fun h => ?_) (List.cons_ne_nil _ _)
      obtain ⟨p, hp, hmany⟩ | hone := upperOf_cases c
      · have htwo := (of_mem_upperExpansions p hp).2
        have hlength := congrArg List.length (List.append_eq_nil_iff.mp h).1
        rw [hmany, List.length_map, List.length_nil] at hlength
        omega
      · rw [hone] at h
        cases h
    | cons l word =>
      rw [List.forall_mem_cons] at hword
      have hfirst := upperOf_eq_singleton_iff hcs.1 hword.1
      have hrest := ih hcs.2 hword.2 hjoin.tail
      rw [List.cons_eq_cons, ← hfirst, ← hrest]
      constructor
      · intro h
        obtain ⟨p, hp, hmany⟩ | hone := upperOf_cases c
        · -- The word would begin with the upper case of a single character.
          rw [hmany] at h
          exact absurd (h ▸ (List.prefix_append _ _).isInfix) (hjoin p hp)
        · rw [hone] at h ⊢
          exact ⟨congrArg (· :: []) (List.cons_eq_cons.mp h).1, (List.cons_eq_cons.mp h).2⟩
      · rintro ⟨hc, hcs⟩
        rw [hc, hcs]
        rfl

end Treasury.Text
