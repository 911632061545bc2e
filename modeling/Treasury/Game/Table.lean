import Treasury.Card.Catalog
import Treasury.Config
import Treasury.Game.State
import Treasury.Random.Dice

/-!
# The table and its services

What effects act on is a `Table`: the state of a game, the dice and the free promotions that were
asked for. They act through services: the economy, the deck, the turn, the units and the houses. A
host may put a service out of order, and whoever asks for it then fails.

A `Play` is an action on the table that may fail. A failed action keeps the changes that it made
before it failed.
-/

namespace Treasury

open Numeric (Binary64 NumberError)
open Treasury.Random (Dice)

/-- A service that effects ask for. -/
inductive Service where
  | addGold
  | subtractGold
  | canAfford
  | multiplyMultiplier
  | addBonus
  | draw
  | shuffle
  | destroy
  | moveToBottom
  | addToHand
  | addToDiscard
  | settle
  | revealTop
  | play
  | addActions
  | consumeAction
  | createUnit
  | killUnit
  | requestFreePromotion
  | setPromotionLevel
  | autoPlace
  | removeUnit
  deriving DecidableEq, Repr, Inhabited

instance : Vocabulary Service where
  all := [.addGold, .subtractGold, .canAfford, .multiplyMultiplier, .addBonus, .draw, .shuffle,
    .destroy, .moveToBottom, .addToHand, .addToDiscard, .settle, .revealTop, .play, .addActions,
    .consumeAction, .createUnit, .killUnit, .requestFreePromotion, .setPromotionLevel, .autoPlace,
    .removeUnit]
  name
    | .addGold => "economy.add_gold"
    | .subtractGold => "economy.subtract_gold"
    | .canAfford => "economy.can_afford"
    | .multiplyMultiplier => "economy.multiply_multiplier"
    | .addBonus => "economy.add_bonus"
    | .draw => "deck.draw"
    | .shuffle => "deck.shuffle"
    | .destroy => "deck.destroy"
    | .moveToBottom => "deck.move_to_bottom"
    | .addToHand => "deck.add_to_hand"
    | .addToDiscard => "deck.add_to_discard"
    | .settle => "deck.settle"
    | .revealTop => "deck.reveal_top"
    | .play => "deck.play"
    | .addActions => "turn.add_actions"
    | .consumeAction => "turn.consume_action"
    | .createUnit => "units.create_unit"
    | .killUnit => "units.kill_unit"
    | .requestFreePromotion => "units.request_free_promotion"
    | .setPromotionLevel => "units.set_promotion_level"
    | .autoPlace => "houses.auto_place"
    | .removeUnit => "houses.remove_unit"

/-- Why an action on the table fails. -/
inductive Fault where
  /-- A number has no double or no whole number near it. -/
  | number (error : NumberError)
  /-- More cards were to be picked at random than there are, or fewer than none. -/
  | sampleSize
  /-- A card that is not in hand was to be played. -/
  | notInHand
  /-- A service is out of order. -/
  | outOfOrder (service : Service)
  deriving DecidableEq, Repr, Inhabited

/-- What stays fixed while a game is played. -/
structure Rules where
  /-- The definitions. -/
  catalog : Catalog := {}
  /-- The settings of the engine. -/
  config : Config := {}
  /-- The services that are out of order. -/
  outOfOrder : List Service := []
  deriving Inhabited

/-- What effects act on. -/
structure Table where
  /-- The state of the game. -/
  game : GameState
  /-- The dice. -/
  dice : Dice
  /-- The ids of the units that a free promotion was asked for, oldest first. -/
  promotions : List String := []
  deriving DecidableEq, Inhabited

/-- An action on the table that may fail. -/
abbrev Play := ExceptT Fault (StateM Table)

namespace Play

/-- The state of the game. -/
def game : Play GameState := return (← get).game

/-- Changes the state of the game. -/
def changeGame (f : GameState → GameState) : Play Unit :=
  modify fun t => { t with game := f t.game }

/-- Changes the four piles. -/
def changeZones (f : Zones → Zones) : Play Unit :=
  changeGame fun g => { g with zones := f g.zones }

/-- Makes something of the state of the game and a new state. -/
def makeFromGame (f : GameState → α × GameState) : Play α :=
  modifyGet fun t => ((f t.game).1, { t with game := (f t.game).2 })

/-- Throws the dice. -/
def throwDice (f : Dice → α × Dice) : Play α :=
  modifyGet fun t => ((f t.dice).1, { t with dice := (f t.dice).2 })

/-- The answer of a calculation, whose failure is a fault. -/
def calculate (answer : Except NumberError α) : Play α :=
  match answer with
  | .ok a => pure a
  | .error e => throw (.number e)

end Play

namespace Rules

/-- An action that a service performs, unless the service is out of order. -/
def serve (r : Rules) (service : Service) (action : Play α) : Play α :=
  if service ∈ r.outOfOrder then throw (.outOfOrder service) else action

/-- The kind of a card in play, if its definition exists. -/
def kindOf (r : Rules) (c : Card) : Option CardKind := r.catalog.kind? c.cardId

/-- The gold that a card is worth now: that of the grade it is boosted to, and without a boost that
of its definition. -/
def worthOf (r : Rules) (boosts : Boosts) (c : Card) : Int :=
  match boosts.grade? c with
  | some g => g.worth
  | none =>
    match r.catalog.card? c.cardId with
    | some d => d.worth
    | none => 0

end Rules

end Treasury
