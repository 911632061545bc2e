import Treasury.Card.Grade
import Treasury.Card.Kind
import Treasury.Effect.Definition

/-!
# The catalog

Definitions of cards and of random events, and the catalog that holds them by id. A definition that
is added under an id already there takes the place of the old one, so ids stay distinct and keep the
order in which they were first used.
-/

namespace Treasury

/-- The definition of a card. -/
structure CardDefinition where
  /-- The id by which copies and effects refer to the definition. -/
  id : String
  /-- The name shown to players. -/
  name : String
  /-- What the card is for. -/
  kind : CardKind
  /-- The text shown to players. -/
  description : String := ""
  /-- How rare the card is. -/
  rarity : Rarity := .basic
  /-- The grade of a treasure. -/
  grade : Option Grade := none
  /-- The penalty of a pollution card. -/
  pollution : Option Pollution := none
  /-- The jobs that the card is offered to. -/
  jobPools : List String := []
  /-- What an action card does. -/
  effects : List Group := []
  deriving DecidableEq, Repr, Inhabited

namespace CardDefinition

/-- The gold value of the grade, zero without one. -/
def worth (d : CardDefinition) : Int :=
  match d.grade with
  | some g => g.worth
  | none => 0

/-- Whether the card is a treasure. -/
def isTreasure (d : CardDefinition) : Bool := d.kind = .treasure

/-- Whether the card is an action card. -/
def isAction (d : CardDefinition) : Bool := d.kind = .action

/-- Whether the card is a pollution card. -/
def isPollution (d : CardDefinition) : Bool := d.kind = .pollution

end CardDefinition

/-- One option of a choice event. -/
structure Choice where
  /-- The id by which a player chooses it. -/
  id : String
  /-- The text shown to players. -/
  text : String := ""
  /-- What has to hold for it to be chosen. -/
  requirements : List Condition := []
  /-- What it does. -/
  effects : List Group := []
  deriving DecidableEq, Repr, Inhabited

/-- The definition of a random event. -/
structure EventDefinition where
  /-- The id of the event. -/
  id : String
  /-- The name shown to players. -/
  name : String
  /-- The text shown to players. -/
  description : String := ""
  /-- The flavour of the event. -/
  eventType : String := "positive"
  /-- What has to hold for it to happen. -/
  triggers : List Condition := []
  /-- What it does, unless it has choices. -/
  effects : List Group := []
  /-- The options of a choice event. -/
  choices : List Choice := []
  deriving DecidableEq, Repr, Inhabited

namespace EventDefinition

/-- Whether the event runs a chosen option instead of its own effects. -/
def hasChoices (e : EventDefinition) : Bool := !e.choices.isEmpty

/-- The first option of the given id. -/
def choice? (e : EventDefinition) (id : String) : Option Choice := e.choices.find? (·.id = id)

end EventDefinition

/-- All definitions of a game, in the order in which their ids were first used. -/
structure Catalog where
  /-- The cards. -/
  cards : List CardDefinition := []
  /-- The events. -/
  events : List EventDefinition := []
  deriving DecidableEq, Repr, Inhabited

namespace Catalog

/-- A list of definitions after one is added: it takes the place of one of the same id. -/
def adding (id : α → String) (d : α) : List α → List α
  | [] => [d]
  | e :: rest => if id e = id d then d :: rest else e :: adding id d rest

/-- Adding a definition makes it the one of its id. -/
theorem find?_adding_self (id : α → String) (d : α) (ds : List α) :
    (adding id d ds).find? (id · = id d) = some d := by
  induction ds with
  | nil => simp [adding]
  | cons e rest ih => by_cases h : id e = id d <;> simp [adding, h, ih]

/-- Adding a definition leaves those of other ids. -/
theorem find?_adding_of_ne (id : α → String) (d : α) (ds : List α) {other : String}
    (h : id d ≠ other) : (adding id d ds).find? (id · = other) = ds.find? (id · = other) := by
  induction ds with
  | nil => simp [adding, h]
  | cons e rest ih =>
    by_cases he : id e = id d
    · simp [adding, he, h]
    · simp [adding, he, ih, List.find?_cons]

/-- The catalog with a card added. -/
def addCard (c : Catalog) (d : CardDefinition) : Catalog :=
  { c with cards := adding (·.id) d c.cards }

/-- The catalog with an event added. -/
def addEvent (c : Catalog) (e : EventDefinition) : Catalog :=
  { c with events := adding (·.id) e c.events }

/-- The card of the given id. -/
def card? (c : Catalog) (id : String) : Option CardDefinition := c.cards.find? (·.id = id)

/-- The event of the given id. -/
def event? (c : Catalog) (id : String) : Option EventDefinition := c.events.find? (·.id = id)

/-- Whether there is a card of the given id. -/
def hasCard (c : Catalog) (id : String) : Bool := (c.card? id).isSome

/-- The treasure card of a grade. -/
def treasure? (c : Catalog) (g : Grade) : Option CardDefinition := c.card? g.cardId

/-- The kind of the card of the given id. -/
def kind? (c : Catalog) (id : String) : Option CardKind := (c.card? id).map (·.kind)

end Catalog

end Treasury
