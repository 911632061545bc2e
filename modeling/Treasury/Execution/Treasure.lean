import Treasury.Execution.Assignment
import Treasury.Game.Deck
import Treasury.Game.Economy

/-!
# Effects on treasures

Creating, boosting, upgrading and settling treasures in hand.
-/

namespace Treasury

/-- The grade of a card in play, if its definition is a treasure with one. -/
def Rules.treasureGrade? (r : Rules) (c : Card) : Option Grade :=
  match r.catalog.card? c.cardId with
  | some d => if d.isTreasure then d.grade else none
  | none => none

namespace Assignment

/-- Puts a temporary treasure of the grade that the definition states into the hand. Without a
grade, or without a card of that grade, it fails. -/
def createTreasure (a : Assignment) (r : Rules) : Play EffectResult :=
  match (a.effect.createGrade.bind Grade.atPlace?).bind r.catalog.treasure? with
  | none => return a.failed
  | some d => do
    discard (Deck.addToHand r d.id true)
    return a.done 1 a.magnitude

/-- The boosts after the treasures among some cards climb the ladder, and how many climbed. -/
def boosted (r : Rules) (steps : Nat) : List Card → Boosts → Nat × Boosts
  | [], b => (0, b)
  | c :: rest, b =>
    match r.treasureGrade? c with
    | none => boosted r steps rest b
    | some grade =>
      let more := boosted r steps rest (b.boost c (((b.grade? c).getD grade).climb steps))
      (more.1 + 1, more.2)

/-- Boosts the treasures among the targets, by one step at least. -/
def boostTreasure (a : Assignment) (r : Rules) : Play EffectResult := do
  let count ← Play.makeFromGame fun g =>
    let done := boosted r (a.magnitudeOr 1).toNat a.targets g.boosts
    (done.1, { g with boosts := done.2 })
  return a.done count a.magnitude

/-- The game after the treasures in hand among some cards are replaced by new ones of the next
grade, and how many were replaced. -/
def upgraded (r : Rules) : List Card → GameState → Nat × GameState
  | [], g => (0, g)
  | c :: rest, g =>
    match (r.treasureGrade? c).bind Grade.next? with
    | none => upgraded r rest g
    | some grade =>
      -- An upgraded card is gone, so a card that is targeted twice is upgraded once.
      if g.zones.hand.holds c then
        let made := g.newCard grade.cardId false c.owner
        let g := made.2
        let hand := g.zones.hand.exchanged c made.1
        let more := upgraded r rest { g with zones := { g.zones with hand } }
        (more.1 + 1, more.2)
      else upgraded r rest g

/-- Replaces the treasures in hand among the targets by new ones of the next grade. -/
def upgradeTreasure (a : Assignment) (r : Rules) : Play EffectResult := do
  let count ← Play.makeFromGame (upgraded r a.targets)
  return a.done count a.magnitude

/-- Lays the treasures among the targets away for their worth in gold. -/
def settle (a : Assignment) (r : Rules) : Play EffectResult := do
  if a.targets.isEmpty then return a.done 0 0
  else
    let total ← Deck.settle r a.targets
    if total > 0 then discard (Economy.addGold r total true)
    return a.done a.targets.length total

end Assignment

end Treasury
