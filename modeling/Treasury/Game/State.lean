import Treasury.Game.Resident
import Treasury.Game.Zones

/-!
# The state of a game

Everything about one game that effects read and change: turn, gold and actions, the four zones, the
household, effects scheduled for later turns, the modifiers of this turn and the counters that new
ids are made from.
-/

namespace Treasury

open Numeric (Binary64)

/-- What a scheduled effect does on later turns. -/
inductive ScheduleKind where
  /-- Gives gold once. -/
  | delayedGold
  /-- Gives gold every turn. -/
  | goldPerTurn
  /-- Raises the upkeep. -/
  | maintenanceIncrease
  deriving DecidableEq, Repr, Inhabited

instance : Vocabulary ScheduleKind where
  all := [.delayedGold, .goldPerTurn, .maintenanceIncrease]
  name
    | .delayedGold => "delayed_gold"
    | .goldPerTurn => "gold_per_turn"
    | .maintenanceIncrease => "maintenance_increase"

/-- An effect of later turns. -/
structure Scheduled where
  /-- The id of the record. -/
  effectId : String
  /-- What it does. -/
  kind : ScheduleKind
  /-- How much of it. -/
  value : Int
  /-- For how many turns. -/
  remainingTurns : Int
  deriving DecidableEq, Repr, Inhabited

/-- The state of a game. -/
structure GameState where
  /-- The id of the game. -/
  gameId : String := "game"
  /-- The number of the turn. -/
  turn : Int := 1
  /-- The gold held. -/
  gold : Int := 0
  /-- The actions left this turn. -/
  actions : Int := 1
  /-- The four piles. -/
  zones : Zones := {}
  /-- The boosts of this turn. -/
  boosts : Boosts := []
  /-- The units. -/
  residents : List Resident := []
  /-- The houses. -/
  houses : List House := []
  /-- The effects of later turns, oldest first. -/
  scheduled : List Scheduled := []
  /-- What gold gained this turn is multiplied by. -/
  goldMultiplier : Binary64 := .one
  /-- What is added to gold gained this turn. -/
  goldBonus : Int := 0
  /-- Whether pollution does no harm this turn. -/
  pollutionIgnored : Bool := false
  /-- By how much promotions are cheaper this turn. -/
  promotionDiscount : Int := 0
  /-- How many instance ids were made. -/
  instancesMade : Nat := 0
  /-- How many unit ids were made. -/
  unitsMade : Nat := 0
  /-- How many ids of scheduled effects were made. -/
  effectsMade : Nat := 0
  /-- How many physical copies of cards were made. -/
  copiesMade : Nat := 0
  deriving DecidableEq, Repr, Inhabited

namespace GameState

/-- The top card of the deck. -/
def deckTop? (g : GameState) : Option Card := g.zones.deck.head?

/-- A new physical copy with an instance id chosen by the caller. -/
def addCopy (g : GameState) (instanceId cardId : String) (temporary : Bool)
    (owner : Option String) : Card × GameState :=
  ({ serial := g.copiesMade + 1, instanceId, cardId, temporary, owner },
    { g with copiesMade := g.copiesMade + 1 })

/-- A new copy with a fresh instance id: the id of its definition, a number sign and the number of
the copy. -/
def newCard (g : GameState) (cardId : String) (temporary : Bool) (owner : Option String) :
    Card × GameState :=
  let n := g.instancesMade + 1
  { g with instancesMade := n }.addCopy s!"{cardId}#{n}" cardId temporary owner

/-- A fresh unit id. -/
def newUnitId (g : GameState) : String × GameState :=
  let n := g.unitsMade + 1
  (s!"unit_{n}", { g with unitsMade := n })

/-- A fresh id for a scheduled effect. -/
def newEffectId (g : GameState) : String × GameState :=
  let n := g.effectsMade + 1
  (s!"effect_{n}", { g with effectsMade := n })

/-- The card that a host means by an instance id: the first of that id in hand, deck, discard pile
and play area. An id that is nowhere stands for a new copy outside of all zones, of the card named
before the number sign. -/
def cardNamed (g : GameState) (instanceId : String) : Card × GameState :=
  let z := g.zones
  match Pile.named? (z.hand ++ z.deck ++ z.discard ++ z.play) instanceId with
  | some c => (c, g)
  | none =>
    g.addCopy instanceId (.ofList (instanceId.toList.takeWhile (· ≠ '#'))) false none

/-- The cards that a host means by a list of instance ids. -/
def cardsNamed (g : GameState) : List String → List Card × GameState
  | [] => ([], g)
  | id :: rest =>
    let (c, g) := g.cardNamed id
    let (cs, g) := g.cardsNamed rest
    (c :: cs, g)

end GameState

end Treasury
