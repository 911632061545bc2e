/-!
# Vocabularies

Definitions name things by words: kinds of effects, kinds of cards, targets. A `Vocabulary` is a
closed list of such things with a word for each. Where definitions may use a word that this version
does not know, the thing is a `Word`: a known member or the unknown word itself. The main statement
is that reading a word and naming it again gives the word.
-/

namespace Treasury

/-- A closed list of things with a word for each. -/
class Vocabulary (α : Type) where
  /-- The members, in the order in which they are declared. -/
  all : List α
  /-- The word for a member. -/
  name : α → String

namespace Vocabulary

/-- The member that a word names. -/
def ofName? [Vocabulary α] (word : String) : Option α :=
  (all (α := α)).find? (name · = word)

/-- A member found by a word has that word as its name. -/
theorem name_of_ofName? [Vocabulary α] {word : String} {a : α} (h : ofName? word = some a) :
    name a = word := by
  simpa using List.find?_some h

/-- The words of all members, in order. -/
def names (α : Type) [Vocabulary α] : List String := (all (α := α)).map name

end Vocabulary

/-- A word of a definition: a member of its vocabulary or a word outside of it. -/
inductive Word (α : Type) [Vocabulary α] where
  /-- A member of the vocabulary. -/
  | known (member : α)
  /-- A word that names no member. -/
  | other (word : String) (h : Vocabulary.ofName? (α := α) word = none)
  deriving DecidableEq, Repr, Inhabited

namespace Word

variable {α : Type} [Vocabulary α]

/-- Reads a word of a definition. -/
def ofName (word : String) : Word α :=
  match h : Vocabulary.ofName? word with
  | some a => .known a
  | none => .other word h

/-- The word as it stands in a definition. -/
def name : Word α → String
  | .known a => Vocabulary.name a
  | .other word _ => word

/-- Whether the word names a member of the vocabulary. -/
def isKnown : Word α → Bool
  | .known _ => true
  | .other .. => false

/-- A word that was read is written as it was. -/
@[simp]
theorem name_ofName (word : String) : (ofName word : Word α).name = word := by
  unfold ofName
  split
  · next h => exact Vocabulary.name_of_ofName? h
  · rfl

end Word

end Treasury
