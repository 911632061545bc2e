import Treasury.Game.Table

/-!
# Gold and actions

The services that keep the gold and the actions of a turn. Gold gained is multiplied and added to by
the modifiers of the turn; gold lost is not.
-/

namespace Treasury.Economy

open Numeric (Binary64)

/-- The gold that a gain brings under the modifiers of the turn: the gain times the multiplier,
rounded down, unless the multiplier is one, and then the bonus, if there is one. -/
def modifiedGain (g : GameState) (amount : Int) : Except Numeric.NumberError Int := do
  let base ←
    if g.goldMultiplier = .one then pure amount
    else (← Binary64.ofInt amount) * g.goldMultiplier |>.floor
  return if g.goldBonus > 0 then base + g.goldBonus else base

/-- Adds gold and says how much was added. -/
def addGold (r : Rules) (amount : Int) (modified : Bool) : Play Int :=
  r.serve .addGold do
    let gain ← if modified then Play.calculate (modifiedGain (← Play.game) amount) else pure amount
    Play.changeGame fun g => { g with gold := g.gold + gain }
    return gain

/-- Takes gold away, whether or not there is enough. -/
def subtractGold (r : Rules) (amount : Int) : Play Unit :=
  r.serve .subtractGold (Play.changeGame fun g => { g with gold := g.gold - amount })

/-- Whether there is enough gold. -/
def canAfford (r : Rules) (amount : Int) : Play Bool :=
  r.serve .canAfford do return (← Play.game).gold ≥ amount

/-- Multiplies the multiplier of the turn. -/
def multiplyMultiplier (r : Rules) (factor : Binary64) : Play Unit :=
  r.serve .multiplyMultiplier
    (Play.changeGame fun g => { g with goldMultiplier := g.goldMultiplier * factor })

/-- Adds to the bonus of the turn. -/
def addBonus (r : Rules) (bonus : Int) : Play Unit :=
  r.serve .addBonus (Play.changeGame fun g => { g with goldBonus := g.goldBonus + bonus })

/-- Gains a positive amount or zero, and loses a negative one. -/
def apply (r : Rules) (amount : Int) : Play Unit :=
  if amount ≥ 0 then discard (addGold r amount true) else subtractGold r (-amount)

/-- Adds actions to the turn. -/
def addActions (r : Rules) (count : Int) : Play Unit :=
  r.serve .addActions (Play.changeGame fun g => { g with actions := g.actions + count })

/-- Spends an action, if there is one left. -/
def consumeAction (r : Rules) : Play Bool :=
  r.serve .consumeAction do
    if (← Play.game).actions ≤ 0 then return false
    else
      Play.changeGame fun g => { g with actions := g.actions - 1 }
      return true

end Treasury.Economy
