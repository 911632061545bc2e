import Treasury.Game.Table

/-!
# The deck

The services that move cards. Drawing stops at a full hand, every damage card in hand costs one card
of a draw, and an empty deck is refilled by shuffling the discard pile into it.
-/

namespace Treasury.Deck

/-- How many cards in hand cost a card of every draw. -/
def damageInHand (r : Rules) (hand : Pile) : Nat :=
  hand.countP fun c =>
    match r.catalog.card? c.cardId with
    | some d => d.isPollution && d.pollution = some .damage
    | none => false

/-- Shuffles the deck. -/
def shuffle (r : Rules) : Play Unit :=
  r.serve .shuffle do
    let deck := (← Play.game).zones.deck
    let deck ← Play.throwDice (·.shuffle deck)
    Play.changeZones fun z => { z with deck }

/-- Shuffles the discard pile into the deck, if there is one. -/
def refill (r : Rules) : Play Unit := do
  if (← Play.game).zones.discard.isEmpty then pure ()
  else
    Play.changeZones fun z => { z with deck := z.deck ++ z.discard, discard := [] }
    shuffle r

/-- Takes cards from the top of the deck into the hand, one by one, until there are none left to
take, and says which. -/
def take (r : Rules) : Nat → Play (List Card)
  | 0 => pure []
  | n + 1 => do
    if (← Play.game).zones.deck.isEmpty then refill r
    -- There may have been nothing to refill the deck with.
    match (← Play.game).zones.deck with
    | [] => pure []
    | c :: rest =>
      Play.changeZones fun z => { z with deck := rest, hand := z.hand ++ [c] }
      return c :: (← take r n)

/-- Draws cards and says which. -/
def draw (r : Rules) (count : Int) : Play (List Card) :=
  r.serve .draw do
    let hand := (← Play.game).zones.hand
    if (hand.length : Int) ≥ r.config.maxHandSize then pure []
    else take r (count - damageInHand r hand).toNat

/-- Removes a card from the first zone that holds it, and says whether there was one. -/
def destroy (r : Rules) (c : Card) : Play Bool :=
  r.serve .destroy do
    match (← Play.game).zones.zoneOf? c with
    | some zone =>
      Play.changeZones (·.update zone (·.without c))
      return true
    | none => return false

/-- Puts hand cards under the deck and says how many. -/
def moveToBottom (r : Rules) (cs : List Card) : Play Nat :=
  r.serve .moveToBottom
    (Play.makeFromGame fun g =>
      let moved := g.zones.toBottom cs
      (moved.1, { g with zones := moved.2 }))

/-- Puts a new copy into the hand. -/
def addToHand (r : Rules) (cardId : String) (temporary : Bool) : Play Card :=
  r.serve .addToHand do
    let c ← Play.makeFromGame (·.newCard cardId temporary none)
    Play.changeZones fun z => { z with hand := z.hand ++ [c] }
    return c

/-- Puts a new copy onto the discard pile. -/
def addToDiscard (r : Rules) (cardId : String) : Play Card :=
  r.serve .addToDiscard do
    let c ← Play.makeFromGame (·.newCard cardId false none)
    Play.changeZones fun z => { z with discard := z.discard ++ [c] }
    return c

/-- Whether a card in play is a treasure. -/
def isTreasure (r : Rules) (c : Card) : Bool := r.kindOf c = some .treasure

/-- Lays the treasures among the given cards away, and says what they are worth together. -/
def settled (r : Rules) (boosts : Boosts) : List Card → Zones → Int × Zones
  | [], z => (0, z)
  | c :: rest, z =>
    if isTreasure r c then
      let more := settled r boosts rest (z.layAway c)
      (r.worthOf boosts c + more.1, more.2)
    else settled r boosts rest z

/-- Lays treasures away and says what they are worth. -/
def settle (r : Rules) (cs : List Card) : Play Int :=
  r.serve .settle
    (Play.makeFromGame fun g =>
      let done := settled r g.boosts cs g.zones
      (done.1, { g with zones := done.2 }))

/-- Takes the top cards off the deck and says which. -/
def revealTop (r : Rules) (count : Int) : Play (List Card) :=
  r.serve .revealTop
    (Play.makeFromGame fun g =>
      (g.zones.deck.firstCards count,
        { g with zones := { g.zones with deck := g.zones.deck.afterCards count } }))

/-- Moves a card from the hand to the play area. -/
def play (r : Rules) (c : Card) : Play Unit :=
  r.serve .play do
    if (← Play.game).zones.hand.holds c then
      Play.changeZones fun z => { z with hand := z.hand.without c, play := z.play ++ [c] }
    else throw .notInHand

end Treasury.Deck
