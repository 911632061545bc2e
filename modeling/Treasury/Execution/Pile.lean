import Treasury.Execution.Assignment
import Treasury.Game.Deck

/-!
# Effects on the piles

Drawing, revealing and shuffling, removing cards, and the effects of events on the whole deck.
-/

namespace Treasury

/-- The card that a whole-deck upgrade turns a card into. -/
def deckUpgrade? (cardId : String) : Option String :=
  if cardId = Grade.copper.cardId then some Grade.silver.cardId
  else if cardId = Grade.silver.cardId then some Grade.gold.cardId
  else if cardId = Grade.gold.cardId then some Grade.emerald.cardId
  else none

/-- Whether a whole-deck effect that names a card means this one. Without a name it means every
pollution card. -/
def Rules.isMeant (r : Rules) (named : Option String) (c : Card) : Bool :=
  match named with
  | some id => c.cardId = id
  | none => r.kindOf c = some .pollution

namespace Zones

/-- The zones that whole-deck effects search, in order. -/
def searched : List Zone := [.deck, .discard, .hand]

/-- The zones after up to `n` cards that satisfy `p` are removed, one by one, and how many were. -/
def removing (p : Card → Bool) : Nat → Zones → Nat × Zones
  | 0, z => (0, z)
  | n + 1, z =>
    match z.search p searched with
    | none => (0, z)
    | some (zone, c) =>
      let more := removing p n (z.update zone (·.without c))
      (more.1 + 1, more.2)

/-- The zones after revealed cards are dealt out: treasures to the hand, all others to the discard
pile. The number is that of the treasures. -/
def dealt (r : Rules) : List Card → Zones → Nat × Zones
  | [], z => (0, z)
  | c :: rest, z =>
    if Deck.isTreasure r c then
      let more := dealt r rest { z with hand := z.hand ++ [c] }
      (more.1 + 1, more.2)
    else dealt r rest { z with discard := z.discard ++ [c] }

end Zones

namespace Assignment

/-- Draws cards. -/
def drawCard (a : Assignment) (r : Rules) : Play EffectResult := do
  let drawn ← Deck.draw r a.magnitude
  return a.done drawn.length drawn.length

/-- Draws until the hand holds as many cards as the magnitude says. -/
def drawUntil (a : Assignment) (r : Rules) : Play EffectResult := do
  let missing := a.magnitude - (← Play.game).zones.hand.length
  if missing ≤ 0 then return a.done 0 a.magnitude
  else
    let drawn ← Deck.draw r missing
    return a.done drawn.length a.magnitude

/-- Shuffles the deck. -/
def shuffleDeck (a : Assignment) (r : Rules) : Play EffectResult := do
  Deck.shuffle r
  return a.doneInFull

/-- Destroys cards and says how many were there to be destroyed. -/
def destroyAll (r : Rules) : List Card → Play Nat
  | [] => pure 0
  | c :: rest => do
    let destroyed ← Deck.destroy r c
    let more ← destroyAll r rest
    return if destroyed then more + 1 else more

/-- Destroys the targets. -/
def destroyCard (a : Assignment) (r : Rules) : Play EffectResult := do
  let count ← destroyAll r a.targets
  return a.done count a.magnitude

/-- Destroys the targets or, if there are none, the first pollution cards in hand, up to a positive
magnitude. -/
def destroyPollution (a : Assignment) (r : Rules) : Play EffectResult := do
  let pollution := (← Play.game).zones.hand.filter fun c => r.kindOf c = some .pollution
  let chosen :=
    if a.targets.isEmpty then
      if a.magnitude > 0 then pollution.take a.magnitude.toNat else pollution
    else a.targets
  let count ← destroyAll r chosen
  return a.done count a.magnitude

/-- Puts the targets that are in hand under the deck. -/
def moveToDeckBottom (a : Assignment) (r : Rules) : Play EffectResult := do
  let count ← Deck.moveToBottom r a.targets
  return a.done count a.magnitude

/-- Reveals the top cards of the deck, three unless the magnitude is positive; treasures go to the
hand and the rest to the discard pile. With an empty deck it fails. -/
def revealAndGain (a : Assignment) (r : Rules) : Play EffectResult := do
  let revealed ← Deck.revealTop r (a.magnitudeOr 3)
  if revealed.isEmpty then return a.failed
  else
    let gained ← Play.makeFromGame fun g =>
      let done := g.zones.dealt r revealed
      (done.1, { g with zones := done.2 })
    return a.done gained revealed.length

/-- Puts new copies of a card onto the discard pile. -/
def addCopies (r : Rules) (cardId : String) : Nat → Play Unit
  | 0 => pure ()
  | n + 1 => do
    discard (Deck.addToDiscard r cardId)
    addCopies r cardId n

/-- Puts new copies of the named card onto the discard pile, one unless the magnitude is positive.
It fails if no such card is defined. -/
def addCardToDeck (a : Assignment) (r : Rules) : Play EffectResult := do
  let cardId := a.effect.cardId.getD ""
  if cardId = "" || !r.catalog.hasCard cardId then return a.failed
  else
    let copies := a.magnitudeOr 1
    addCopies r cardId copies.toNat
    return a.done copies a.magnitude

/-- Removes copies of the named card, or pollution cards, from deck, discard pile and hand: one
unless the magnitude is positive. It fails if there are none. -/
def removeCardFromDeck (a : Assignment) (r : Rules) : Play EffectResult := do
  let removed ← Play.makeFromGame fun g =>
    let done := g.zones.removing (r.isMeant a.effect.cardId) (a.magnitudeOr 1).toNat
    (done.1, { g with zones := done.2 })
  return { kind := a.effect.kind, success := removed > 0, count := removed, value := a.magnitude }

/-- Replaces the first copy of the named card, or of copper, by a new copy of the card it upgrades
to. It fails if it does not upgrade or if there is no copy. -/
def upgradeCardInDeck (a : Assignment) : Play EffectResult := do
  let named := a.effect.cardId.getD ""
  let cardId := if named = "" then Grade.copper.cardId else named
  match deckUpgrade? cardId, (← Play.game).zones.search (·.cardId = cardId) Zones.searched with
  | some upgrade, some (zone, c) =>
    let new ← Play.makeFromGame (·.newCard upgrade false c.owner)
    Play.changeZones (·.update zone (·.exchanged c new))
    return a.done 1 a.magnitude
  | _, _ => return a.failed

end Assignment

end Treasury
