import Treasury.Activation.Magnitude
import Treasury.Execution.Assignment
import Treasury.Game.Economy

/-!
# Effects on gold and the turn

Gold and actions, the modifiers of the turn, gambles, and effects that are scheduled for later
turns.
-/

namespace Treasury.Assignment

/-- Adds actions. -/
def addAction (a : Assignment) (r : Rules) : Play EffectResult := do
  Economy.addActions r a.magnitude
  return a.doneInFull

/-- Gains gold, or loses it if the magnitude is negative. -/
def addGold (a : Assignment) (r : Rules) : Play EffectResult := do
  Economy.apply r a.magnitude
  return a.doneInFull

/-- Multiplies the multiplier of the turn by that of the source. Without a source it fails. -/
def multiplyGold (a : Assignment) (r : Rules) : Play EffectResult :=
  match a.effect.dynamic with
  | none => return a.failed
  | some source => do
    Economy.multiplyMultiplier r source.multiplier
    return a.doneInFull

/-- Adds to the bonus of the turn. -/
def addGoldBonus (a : Assignment) (r : Rules) : Play EffectResult := do
  Economy.addBonus r a.magnitude
  return a.doneInFull

/-- Rolls for a win and pays one of two amounts. Both amounts are worked out, whichever is paid. -/
def gamble (a : Assignment) (r : Rules) : Play EffectResult := do
  let roll ← Play.throwDice (·.between 0 99)
  -- Computed amounts may roll the dice as well, the one for a win first.
  let won := roll < a.effect.successChance
  let successValue ← a.effect.successValue.resolve r a.results
  let failValue ← a.effect.failValue.resolve r a.results
  let outcome := if won then successValue else failValue
  Economy.apply r outcome
  return { kind := a.effect.kind, success := won, count := a.targets.length, value := outcome }

/-- Takes a percentage of the gold held; a percentage that comes out below one takes nothing. -/
def spendGoldPercent (a : Assignment) (r : Rules) : Play EffectResult := do
  let loss ← Play.calculate (percentOf (← Play.game).gold a.magnitude)
  if loss > 0 then Economy.subtractGold r loss
  return a.done a.targets.length loss

/-- Sets the discount on promotions. -/
def discountPromotions (a : Assignment) : Play EffectResult := do
  Play.changeGame fun g => { g with promotionDiscount := a.magnitude }
  return a.doneInFull

/-- Lets pollution do no harm this turn. -/
def ignorePollution (a : Assignment) : Play EffectResult := do
  Play.changeGame fun g => { g with pollutionIgnored := true }
  return a.doneInFull

/-- Schedules an effect for the turns that the definition states, or else for a default number. -/
def schedule (a : Assignment) (kind : ScheduleKind) (defaultTurns : Int) : Play EffectResult := do
  let effectId ← Play.makeFromGame (·.newEffectId)
  let remainingTurns := if a.effect.duration > 0 then a.effect.duration else defaultTurns
  Play.changeGame fun g =>
    let later : Scheduled := { effectId, kind, value := a.magnitude, remainingTurns }
    { g with scheduled := g.scheduled ++ [later] }
  return a.doneInFull

end Treasury.Assignment
