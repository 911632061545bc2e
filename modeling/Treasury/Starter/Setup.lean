import Treasury.Game.State
import Treasury.Random.Dice

/-!
# The start of a game

A new game has a shuffled deck, an opening hand dealt from its top, two houses and a couple of pawns
in the first of them.
-/

namespace Treasury.Starter

open Treasury.Random (Dice)

/-- The cards that a deck is made of when nothing else is said. -/
def defaultDeck : List String :=
  List.replicate 7 Grade.copper.cardId ++ [Grade.silver.cardId, "smelting", "appraisal"]

/-- What a new game is made of. -/
structure Options where
  /-- The cards of the deck; none stand for the default deck. -/
  deck : List String := []
  /-- How many cards are dealt. A negative number says how many stay in the deck. -/
  handSize : Int := 5
  /-- The gold at the start. -/
  gold : Int := 0
  deriving DecidableEq, Repr, Inhabited

/-- New copies of cards, in order. -/
def copies : List String → GameState → List Card × GameState
  | [], g => ([], g)
  | cardId :: rest, g =>
    let made := g.newCard cardId false none
    let more := copies rest made.2
    (made.1 :: more.1, more.2)

/-- The game with a unit added that lives in the first house. -/
def withPawn (name : String) (g : GameState) : GameState :=
  let id := g.newUnitId
  let pawn : Resident :=
    { unitId := id.1, name, combatPower := Job.pawn.power, houseId := some "house_1" }
  { id.2 with residents := id.2.residents ++ [pawn] }

/-- The household of a new game. -/
def withHousehold (g : GameState) : GameState :=
  let g := withPawn "Brea" (withPawn "Alden" g)
  let ids := g.residents.map (·.unitId)
  { g with houses := [
    { houseId := "house_1", adultA := ids[0]?, adultB := ids[1]? }, { houseId := "house_2" }] }

/-- The opening hand dealt from the top of the deck. -/
def dealt (deck : Pile) (handSize : Int) : Zones :=
  let count := min handSize deck.length
  { hand := deck.firstCards count, deck := deck.afterCards count }

/-- A new game with a given id and dice. -/
def gameOf (gameId : String) (o : Options) (d : Dice) : GameState :=
  let made := copies (if o.deck.isEmpty then defaultDeck else o.deck) { gameId, gold := o.gold }
  let shuffled := d.shuffle made.1
  withHousehold { made.2 with zones := dealt shuffled.1 o.handSize }

/-- A new game by a seed. Without a seed the dice are seeded with `entropy`, and the game is named
by a number that they give. -/
def setup (seed : Option Int) (entropy : Int) (o : Options) : GameState :=
  match seed with
  | some n => gameOf s!"starter_{n}" o (.seeded n)
  | none =>
    let number := (Dice.seeded entropy).between 0 999999
    gameOf s!"starter_{number.1}" o number.2

/-- Dealing neither loses nor adds cards. -/
theorem dealt_hand_append_deck (deck : Pile) (handSize : Int) :
    (dealt deck handSize).hand ++ (dealt deck handSize).deck = deck :=
  Pile.firstCards_append_afterCards deck _

end Treasury.Starter
