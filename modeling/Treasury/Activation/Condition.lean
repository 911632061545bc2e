import Treasury.Activation.Result
import Treasury.Game.Table

/-!
# Evaluating conditions

A condition reads one quantity from the game or from the previous result and compares it. It may
state its own comparison; otherwise its kind has a natural one, with an operand of its own where the
question is one of yes or no. Conditions of unknown kinds hold.
-/

namespace Treasury

/-- How many cards of a pile are of a kind. -/
def Rules.countKind (r : Rules) (kind : CardKind) (p : Pile) : Nat :=
  p.countP fun c => r.kindOf c = some kind

/-- Whether the top card of the deck is of a kind, as a number. -/
def Rules.deckTopIs (r : Rules) (kind : CardKind) (g : GameState) : Nat :=
  match g.deckTop? with
  | some c => if r.kindOf c = some kind then 1 else 0
  | none => 0

namespace ConditionKind

/-- The quantity that a condition reads. -/
def quantity (kind : ConditionKind) (r : Rules) (g : GameState) (results : ResultStack)
    (cardId : Option String) : Int :=
  match kind with
  | .none => 0
  | .goldAbove | .goldBelow => g.gold
  | .handHasTreasure => r.countKind .treasure g.zones.hand
  | .handHasPollution => r.countKind .pollution g.zones.hand
  | .handHasAction => r.countKind .action g.zones.hand
  | .handCountAbove | .handCountBelow => g.zones.hand.length
  | .deckTopIsTreasure => r.deckTopIs .treasure g
  | .deckTopIsPollution => r.deckTopIs .pollution g
  | .deckTopIsAction => r.deckTopIs .action g
  | .deckNotEmpty => g.zones.deck.length
  | .hasUnit | .hasMultipleUnits => g.residents.length
  | .hasPromotableUnit => g.residents.countP (·.canPromote r.config.maxPromotionLevel)
  | .previousEffectSucceeded => if results.lastSucceeded then 1 else 0
  | .previousCountAbove => results.lastCount
  | .hasCopperInDeck => g.zones.wholeDeck.countP (·.cardId = Grade.copper.cardId)
  | .hasPollutionInDeck => r.countKind .pollution g.zones.wholeDeck
  | .hasSpecificCardInDeck => g.zones.wholeDeck.countP (some ·.cardId = cardId)

/-- The natural comparison of a kind. -/
def comparison : ConditionKind → Comparison
  | .goldBelow | .handCountBelow => .less
  | _ => .atLeast

/-- The number that the quantity is naturally compared with, given the value of the condition. -/
def operand (kind : ConditionKind) (value : Int) : Int :=
  match kind with
  | .goldAbove | .goldBelow | .handCountAbove | .handCountBelow | .previousCountAbove => value
  | .hasMultipleUnits => if value ≤ 0 then 2 else value
  | _ => 1

end ConditionKind

namespace Condition

/-- Whether a condition of a known kind is compared at all: one without a kind, and one that looks
for a card without naming it, hold in any case. -/
def isCompared (kind : ConditionKind) (cardId : Option String) : Bool :=
  match kind with
  | .none => false
  | .hasSpecificCardInDeck => cardId.getD "" ≠ ""
  | _ => true

/-- Whether a condition holds. -/
def holds (c : Condition) (r : Rules) (g : GameState) (results : ResultStack) : Bool :=
  match c.kind with
  | .other .. => true
  | .known kind =>
    if isCompared kind c.cardId then
      let quantity := kind.quantity r g results c.cardId
      match c.comparison with
      | some op => op.holds quantity c.value
      | none => kind.comparison.holds quantity (kind.operand c.value)
    else true

/-- Whether all conditions of a list hold. -/
def allHold (cs : List Condition) (r : Rules) (g : GameState) (results : ResultStack) : Bool :=
  cs.all (·.holds r g results)

/-- A condition of an unknown kind holds. -/
theorem holds_of_unknown {c : Condition} {word : String}
    {hword : Vocabulary.ofName? (α := ConditionKind) word = none} (h : c.kind = .other word hword)
    (r : Rules) (g : GameState) (results : ResultStack) : c.holds r g results = true := by
  simp [holds, h]

end Condition

/-- The effects of a group that apply in a state. -/
def Group.chosen (grp : Group) (r : Rules) (g : GameState) (results : ResultStack) : List Effect :=
  if Condition.allHold grp.conditions r g results then grp.effects else grp.elseEffects

end Treasury
