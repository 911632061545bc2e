import Treasury.Card.Catalog

/-!
# Checking a catalog

Consistency checks of definitions: required parts are there, cards that effects name exist, and
parameters make sense for their kind. What would make an effect fail is an error; what is merely
odd, and unknown words, which the engine tolerates, are warnings.
-/

namespace Treasury

/-- What a check found, errors and warnings apart. -/
structure Findings where
  /-- What has to be mended. -/
  errors : List String := []
  /-- What is merely odd. -/
  warnings : List String := []
  deriving DecidableEq, Repr, Inhabited

namespace Findings

/-- The findings of one check after those of another. -/
def append (f g : Findings) : Findings where
  errors := f.errors ++ g.errors
  warnings := f.warnings ++ g.warnings

instance : Append Findings := ⟨append⟩

/-- An error if a condition holds. -/
def errorIf (condition : Bool) (text : String) : Findings where
  errors := if condition then [text] else []

/-- A warning if a condition holds. -/
def warningIf (condition : Bool) (text : String) : Findings where
  warnings := if condition then [text] else []

/-- The findings of all items of a list. -/
def all (check : α → Findings) (items : List α) : Findings where
  errors := items.flatMap fun a => (check a).errors
  warnings := items.flatMap fun a => (check a).warnings

/-- The findings with a text in front of each. -/
def within (place : String) (f : Findings) : Findings where
  errors := f.errors.map (place ++ ·)
  warnings := f.warnings.map (place ++ ·)

/-- Whether nothing has to be mended. -/
def isValid (f : Findings) : Bool := f.errors.isEmpty

end Findings

open Findings

/-- Checks a condition. -/
def Condition.check (c : Condition) : Findings :=
  match c.kind with
  | .other word _ => warningIf true s!"Unknown condition kind '{word}' is always true"
  | .known kind =>
    errorIf (kind = .hasSpecificCardInDeck && c.cardId.getD "" = "")
      "has_specific_card_in_deck requires card_id"

/-- Checks a value source of an effect of the given name and target. -/
def ValueSource.check (s : ValueSource) (name : String) (target : TargetKind) : Findings :=
  match s.kind with
  | .other word _ => warningIf true s!"{name}: unknown value source '{word}' resolves to its base"
  | .known .randomRange =>
    warningIf (s.least > s.greatest)
      s!"{name}: random_range min {s.least} > max {s.greatest}"
  | .known .randomDice =>
    errorIf (s.base < 1) s!"{name}: random_dice needs base >= 1 (die size)"
  | .known .targetGoldValue =>
    warningIf (target = .none) s!"{name}: target_gold_value without a target is always 0"
  | .known _ => {}

/-- The source of an amount, if it is computed. -/
def Amount.source? : Amount → Option ValueSource
  | .fixed _ => none
  | .computed s => some s

namespace Effect

/-- The value sources of an effect. -/
def sources (e : Effect) : List ValueSource :=
  e.dynamic.toList ++ e.successValue.source?.toList ++ e.failValue.source?.toList

/-- Checks the parameters that belong to the kind of an effect. -/
def checkKind (e : Effect) (kind : EffectKind) (catalog : Catalog) : Findings :=
  let name := Vocabulary.name kind
  let cardId := e.cardId.getD ""
  match kind with
  | .createTempTreasure =>
    errorIf (e.createGrade.bind Grade.atPlace?).isNone
      s!"{name}: create_grade must be one of [1, 2, 3, 4, 5, 6, 7]"
  | .gamble =>
    errorIf (!(0 ≤ e.successChance && e.successChance ≤ 100))
      s!"{name}: success_chance must be between 0 and 100"
  | .goldMultiplier =>
    errorIf e.dynamic.isNone s!"{name}: requires a dynamic source carrying the multiplier"
  | .addCardToDeck =>
    if cardId = "" then errorIf true s!"{name}: requires card_id"
    else errorIf (!catalog.hasCard cardId) s!"{name}: references unknown card '{cardId}'"
  | .removeCardFromDeck =>
    warningIf (cardId ≠ "" && !catalog.hasCard cardId)
      s!"{name}: references unknown card '{cardId}'"
  | .permanentUpgrade =>
    warningIf (e.target ∉ [.handTreasure, .handCard, .allHandTreasure])
      s!"{name}: target '{Vocabulary.name e.target}' never yields treasures to upgrade"
  | _ => {}

/-- Checks an effect. -/
def check (e : Effect) (catalog : Catalog) : Findings :=
  match e.kind with
  | .other word _ => warningIf true s!"Unknown effect kind '{word}' is skipped"
  | .known kind =>
    let name := Vocabulary.name kind
    errorIf (e.maxTargets < 0) s!"{name}: max_targets must be >= 0"
      ++ e.checkKind kind catalog
      ++ all (·.check name e.target) e.sources

end Effect

/-- Checks a group. -/
def Group.check (g : Group) (catalog : Catalog) : Findings :=
  all Condition.check g.conditions
    ++ warningIf (!g.elseEffects.isEmpty && g.conditions.isEmpty)
      "else_effects on a group without conditions never run"
    ++ all (·.check catalog) (g.effects ++ g.elseEffects)

/-- Checks a card. -/
def CardDefinition.check (d : CardDefinition) (catalog : Catalog) : Findings :=
  errorIf (d.id = "") "Card has empty id"
    ++ errorIf (d.name = "") s!"Card '{d.id}' has empty name"
    ++ errorIf (d.isTreasure && d.grade.isNone) s!"Treasure card '{d.id}' has no treasure_grade"
    ++ errorIf (d.isPollution && d.pollution.isNone)
      s!"Pollution card '{d.id}' has no pollution_type"
    ++ warningIf (d.isAction && d.effects.isEmpty) s!"Action card '{d.id}' has no effects"
    ++ warningIf (!d.isAction && !d.effects.isEmpty)
      s!"Card '{d.id}' is not an action card; its effects never run on play"
    ++ (all (·.check catalog) d.effects).within s!"Card '{d.id}': "

/-- Checks the options of a choice event, given the ids of the options before them. -/
def Choice.checkAll (catalog : Catalog) (seen : List String) : List Choice → Findings
  | [] => {}
  | c :: rest =>
    errorIf (c.id ∈ seen) s!"Duplicate choice_id '{c.id}'"
      ++ all Condition.check c.requirements
      ++ (all (·.check catalog) c.effects).within s!"choice '{c.id}': "
      ++ checkAll catalog (c.id :: seen) rest

/-- Checks an event. -/
def EventDefinition.check (e : EventDefinition) (catalog : Catalog) : Findings :=
  (errorIf (e.id = "") "Event has empty id"
    ++ errorIf (e.name = "") s!"Event '{e.id}' has empty name"
    ++ all Condition.check e.triggers
    ++ all (·.check catalog) e.effects
    ++ Choice.checkAll catalog [] e.choices
    ++ warningIf (e.effects.isEmpty && e.choices.isEmpty)
      s!"Event '{e.id}' has neither effects nor choices"
    ++ warningIf (!e.effects.isEmpty && !e.choices.isEmpty)
      "effects are ignored on a choice event").within s!"Event '{e.id}': "

/-- Checks a catalog. -/
def Catalog.check (c : Catalog) : Findings :=
  all (·.check c) c.cards
    ++ all (·.check c) c.events
    ++ warningIf c.cards.isEmpty "No cards defined"

/-- The words for a catalog that is refused for its errors. -/
def Findings.refusal (f : Findings) : String :=
  s!"Definition validation failed with {f.errors.length} error(s)"

end Treasury
