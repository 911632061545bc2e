import Treasury.Vocabulary

/-!
# Kinds of cards

The three kinds of cards, their rarities and the penalties of pollution cards.
-/

namespace Treasury

/-- What a card is for. -/
inductive CardKind where
  /-- Produces gold. -/
  | treasure
  /-- Is played for its effects, at the cost of an action. -/
  | action
  /-- A penalty that cannot be played. -/
  | pollution
  deriving DecidableEq, Repr, Inhabited

instance : Vocabulary CardKind where
  all := [.treasure, .action, .pollution]
  name
    | .treasure => "treasure"
    | .action => "action"
    | .pollution => "pollution"

/-- How rare a card is. -/
inductive Rarity where
  | basic
  | advanced
  | rare
  | superRare
  | legendary
  deriving DecidableEq, Repr, Inhabited

instance : Vocabulary Rarity where
  all := [.basic, .advanced, .rare, .superRare, .legendary]
  name
    | .basic => "basic"
    | .advanced => "advanced"
    | .rare => "rare"
    | .superRare => "super_rare"
    | .legendary => "legendary"

/-- The penalty of a pollution card. -/
inductive Pollution where
  /-- Only takes a place in the hand. -/
  | debt
  /-- Costs gold at the end of a turn. -/
  | curse
  /-- Keeps its owner from being promoted. -/
  | disease
  /-- Costs one card of every draw. -/
  | damage
  deriving DecidableEq, Repr, Inhabited

instance : Vocabulary Pollution where
  all := [.debt, .curse, .disease, .damage]
  name
    | .debt => "debt"
    | .curse => "curse"
    | .disease => "disease"
    | .damage => "damage"

end Treasury
