/-!
# Blank characters

Three notions of blank are in use, and they differ on controls. `isBlank` is the widest and is used
where settings and grade names are read; `isSpace` leaves out the four information separators and is
used where a document's numbers are read; `isAsciiSpace` has six characters and surrounds numerals.
-/

namespace Treasury.Text

/-- Blanks outside the controls: the space, the no-break spaces and the separators. -/
def isSeparator (c : Char) : Bool :=
  c = ' ' || c = '\u0085' || c = '\u00a0' || c = '\u1680' ||
    ('\u2000' ≤ c && c ≤ '\u200a') || c = '\u2028' || c = '\u2029' || c = '\u202f' ||
    c = '\u205f' || c = '\u3000'

/-- Blanks with the information separators. -/
def isBlank (c : Char) : Bool :=
  ('\t' ≤ c && c ≤ '\r') || ('\x1c' ≤ c && c ≤ '\x1f') || isSeparator c

/-- Blanks without the information separators. -/
def isSpace (c : Char) : Bool :=
  ('\t' ≤ c && c ≤ '\r') || isSeparator c

/-- The space and the controls from tab to carriage return. -/
def isAsciiSpace (c : Char) : Bool :=
  ('\t' ≤ c && c ≤ '\r') || c = ' '

/-- The characters from the first to the last that is not blank in the given sense. -/
def trim (blank : Char → Bool) (cs : List Char) : List Char :=
  ((cs.dropWhile blank).reverse.dropWhile blank).reverse

/-- Every ASCII space is blank in the other senses. -/
theorem isSpace_of_isAsciiSpace {c : Char} (h : isAsciiSpace c) : isSpace c := by
  simp only [isAsciiSpace, isSpace, isSeparator, Bool.or_eq_true] at *
  grind

/-- Every space is a blank. -/
theorem isBlank_of_isSpace {c : Char} (h : isSpace c) : isBlank c := by
  simp only [isSpace, isBlank, Bool.or_eq_true] at *
  grind

/-- A text that neither starts nor ends with a blank is not changed by trimming. -/
theorem trim_eq_self (blank : Char → Bool) (cs : List Char)
    (hfirst : ∀ c, cs.head? = some c → blank c = false)
    (hlast : ∀ c, cs.getLast? = some c → blank c = false) : trim blank cs = cs := by
  have hdrop : cs.dropWhile blank = cs := by
    cases cs with
    | nil => rfl
    | cons c rest => simp [List.dropWhile, hfirst c rfl]
  have hrev : cs.reverse.dropWhile blank = cs.reverse := by
    rcases h : cs.reverse with _ | ⟨c, rest⟩
    · rfl
    · have hc : cs.getLast? = some c := by
        rw [List.getLast?_eq_head?_reverse, h]
        rfl
      simp [List.dropWhile, hlast c hc]
  simp [trim, hdrop, hrev]

end Treasury.Text
