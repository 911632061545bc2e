import Treasury.Text.Case
import Treasury.Text.Quoted
import Treasury.Text.Blank

/-!
# The treasure ladder

Treasures come in seven grades, from copper to diamond. A grade has a place on the ladder, a gold
value and a treasure card of its own; boosting climbs the ladder and stops at its top. Definitions
give a grade by its place, by its name or by the id of its card, and `Grade.read` is the rule for
that.
-/

namespace Treasury

/-- A grade of treasure. -/
inductive Grade where
  | copper
  | silver
  | gold
  | emerald
  | sapphire
  | ruby
  | diamond
  deriving DecidableEq, Repr, Inhabited

namespace Grade

/-- The grades from the lowest to the highest. -/
def all : List Grade := [copper, silver, gold, emerald, sapphire, ruby, diamond]

/-- The place of a grade on the ladder, from one to seven. -/
def place : Grade → Nat
  | copper => 1
  | silver => 2
  | gold => 3
  | emerald => 4
  | sapphire => 5
  | ruby => 6
  | diamond => 7

/-- The grade at a place of the ladder. -/
def atPlace? (n : Int) : Option Grade := all.find? fun g => (g.place : Int) = n

/-- The name of a grade. -/
def name : Grade → String
  | copper => "copper"
  | silver => "silver"
  | gold => "gold"
  | emerald => "emerald"
  | sapphire => "sapphire"
  | ruby => "ruby"
  | diamond => "diamond"

/-- The name of a grade in capitals. -/
def capitalName : Grade → String
  | copper => "COPPER"
  | silver => "SILVER"
  | gold => "GOLD"
  | emerald => "EMERALD"
  | sapphire => "SAPPHIRE"
  | ruby => "RUBY"
  | diamond => "DIAMOND"

/-- The gold that a treasure of a grade is worth. -/
def worth : Grade → Int
  | copper => 1
  | silver => 2
  | gold => 4
  | emerald => 7
  | sapphire => 12
  | ruby => 20
  | diamond => 35

/-- The id of the treasure card of a grade. -/
def cardId : Grade → String
  | copper => "copper"
  | silver => "silver"
  | gold => "gold_coin"
  | emerald => "emerald"
  | sapphire => "sapphire"
  | ruby => "ruby"
  | diamond => "diamond"

/-- The grade one place up the ladder. -/
def next? : Grade → Option Grade
  | copper => some silver
  | silver => some gold
  | gold => some emerald
  | emerald => some sapphire
  | sapphire => some ruby
  | ruby => some diamond
  | diamond => none

/-- The grade a number of places up the ladder, or its top. -/
def climb (g : Grade) : Nat → Grade
  | 0 => g
  | n + 1 => match g.next? with
    | some h => h.climb n
    | none => g

/-- The next grade stands one place higher. -/
theorem place_next? {g h : Grade} (e : g.next? = some h) : h.place = g.place + 1 := by
  cases g <;> simp [next?] at e <;> subst e <;> rfl

/-- Only the top has no next grade. -/
theorem next?_eq_none {g : Grade} (e : g.next? = none) : g.place = 7 := by
  cases g <;> simp [next?] at e
  rfl

/-- No grade stands above the top. -/
theorem place_le (g : Grade) : g.place ≤ 7 := by
  cases g <;> decide

/-- Climbing `n` places reaches the place `n` above, or the top. -/
theorem place_climb (g : Grade) (n : Nat) : (g.climb n).place = min 7 (g.place + n) := by
  induction n generalizing g with
  | zero =>
    have hle := g.place_le
    simp only [climb]
    omega
  | succ n ih =>
    cases h : g.next? with
    | none =>
      have htop := next?_eq_none h
      simp only [climb, h]
      omega
    | some k =>
      have hnext := place_next? h
      simp only [climb, h, ih]
      omega

/-- A grade is the only one at its place. -/
theorem place_injective {g h : Grade} (e : g.place = h.place) : g = h := by
  cases g <;> cases h <;> simp_all [place]

/-- The gold value grows along the ladder. -/
theorem worth_le_of_place_le {g h : Grade} (e : g.place ≤ h.place) : g.worth ≤ h.worth := by
  cases g <;> cases h <;> simp_all [place, worth]

/-- What a definition or a host gives as a grade. -/
inductive Raw where
  /-- A place on the ladder. -/
  | number (n : Int)
  /-- A truth value, which counts as one or zero. -/
  | truth (b : Bool)
  /-- A name or a card id. -/
  | text (s : String)
  deriving DecidableEq, Repr

/-- Why something is not a grade. -/
inductive ReadError where
  /-- There is no such place on the ladder; the number is kept as it is shown. -/
  | noSuchPlace (shown : String)
  /-- There is no grade of that name. -/
  | noSuchName (text : String)
  deriving DecidableEq, Repr

/-- The words for something that is not a grade. -/
def ReadError.message : ReadError → String
  | .noSuchPlace shown => s!"{shown} is not a valid TreasureGrade"
  | .noSuchName text => s!"Unknown treasure grade: {Text.quoted text}"

/-- The grade at a place given by a host. -/
def ofPlace (n : Int) : Except ReadError Grade :=
  match atPlace? n with
  | some g => .ok g
  | none => .error (.noSuchPlace (toString n))

/-- The grade that a text names: blanks around it and its case do not matter. The text is a card id,
or its capitals are the capitals of a name. -/
def ofText (text : String) : Except ReadError Grade :=
  let key := Text.lower (.ofList (Text.trim Text.isBlank text.toList))
  match all.find? (·.cardId = key) with
  | some g => .ok g
  | none =>
    match all.find? (·.capitalName = Text.upper key) with
    | some g => .ok g
    | none => .error (.noSuchName text)

/-- Reads a grade. -/
def read : Raw → Except ReadError Grade
  | .number n => ofPlace n
  | .truth true => .ok copper
  | .truth false => .error (.noSuchPlace "False")
  | .text s => ofText s

/-- The grade `steps` places up the ladder, at most its top. A number of steps below zero may leave
the ladder at its foot. -/
def boosted (g : Grade) (steps : Int) : Except ReadError Grade :=
  ofPlace (min (g.place + steps) diamond.place)

end Grade

end Treasury
