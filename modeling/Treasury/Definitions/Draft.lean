import Treasury.Card.Catalog

/-!
# Drafts of definitions

A document is read in two passes. The first one finds what is wrong with it, and its outcome are
drafts: definitions whose grades still stand as the document has them. The second one makes
definitions of the drafts. It reads the grades again, so it may fail by itself.
-/

namespace Treasury

/-- An effect as a document has it. -/
structure EffectDraft where
  /-- The effect, without the grade it creates. -/
  effect : Effect
  /-- The grade of the treasure it creates, as it is given. -/
  grade : Option Grade.Raw
  deriving DecidableEq, Repr

/-- A group of effects as a document has it. -/
structure GroupDraft where
  /-- The conditions, all of which have to hold. -/
  conditions : List Condition
  /-- The effects if they hold. -/
  effects : List EffectDraft
  /-- The effects if they do not. -/
  elseEffects : List EffectDraft
  deriving DecidableEq, Repr

/-- A card as a document has it. -/
structure CardDraft where
  /-- The card, without its grade and its effects. -/
  card : CardDefinition
  /-- The grade of a treasure, as it is given. -/
  grade : Option Grade.Raw
  /-- What an action card does. -/
  effects : List GroupDraft
  deriving DecidableEq, Repr

/-- An option of a choice event as a document has it. -/
structure ChoiceDraft where
  /-- The option, without its effects. -/
  choice : Choice
  /-- What it does. -/
  effects : List GroupDraft
  deriving DecidableEq, Repr

/-- An event as a document has it. -/
structure EventDraft where
  /-- The event, without its effects and its options. -/
  event : EventDefinition
  /-- What it does, unless it has choices. -/
  effects : List GroupDraft
  /-- The options of a choice event. -/
  choices : List ChoiceDraft
  deriving DecidableEq, Repr

/-- The effect of a draft. -/
def EffectDraft.read (d : EffectDraft) : Except Grade.ReadError Effect := do
  let grade ← d.grade.mapM Grade.read
  return { d.effect with createGrade := grade.map fun g => (g.place : Int) }

/-- The group of a draft. -/
def GroupDraft.read (d : GroupDraft) : Except Grade.ReadError Group := do
  let effects ← d.effects.mapM EffectDraft.read
  let elseEffects ← d.elseEffects.mapM EffectDraft.read
  return { conditions := d.conditions, effects, elseEffects }

/-- The card of a draft. -/
def CardDraft.read (d : CardDraft) : Except Grade.ReadError CardDefinition := do
  let grade ← d.grade.mapM Grade.read
  let effects ← d.effects.mapM GroupDraft.read
  return { d.card with grade, effects }

/-- The option of a draft. -/
def ChoiceDraft.read (d : ChoiceDraft) : Except Grade.ReadError Choice := do
  let effects ← d.effects.mapM GroupDraft.read
  return { d.choice with effects }

/-- The event of a draft. -/
def EventDraft.read (d : EventDraft) : Except Grade.ReadError EventDefinition := do
  let effects ← d.effects.mapM GroupDraft.read
  let choices ← d.choices.mapM ChoiceDraft.read
  return { d.event with effects, choices }

end Treasury
