import Treasury.Activation.Result
import Treasury.Game.Table

/-!
# Magnitudes

How much of something an effect does. A value source reads a base from the game, the previous result
or the targets, or rolls it; the magnitude is the base times the multiplier, rounded to the nearest
whole number with ties going to the even one. A product that is not finite counts as zero.
-/

namespace Treasury

open Numeric (Binary64 NumberError)

/-- The gold value of the top card of the deck by its definition, zero unless it is a treasure. -/
def Rules.deckTopWorth (r : Rules) (g : GameState) : Int :=
  match g.deckTop? with
  | some c =>
    match r.catalog.card? c.cardId with
    | some d => if d.isTreasure then d.worth else 0
    | none => 0
  | none => 0

/-- The gold value of cards together. -/
def Rules.worthOfAll (r : Rules) (boosts : Boosts) (cs : List Card) : Int :=
  cs.foldr (fun c total => r.worthOf boosts c + total) 0

/-- A percentage of an amount, rounded to the nearest whole number: the quotient by one hundred is
rounded to a double first. -/
def percentOf (amount percent : Int) : Except NumberError Int := do
  (← Binary64.quotient (amount * percent) 100).round

namespace ValueSource

/-- The base that a source reads or rolls. -/
def baseResult (s : ValueSource) (r : Rules) (results : ResultStack) (targets : List Card) :
    Play Int := do
  let g ← Play.game
  match s.kind with
  | .other .. | .known .fixed => pure s.base
  | .known .previousCount => pure results.lastCount
  | .known .previousValue => pure results.lastValue
  | .known .currentGold => pure g.gold
  | .known .currentGoldPercent => Play.calculate (percentOf g.gold s.base)
  | .known .handCount => pure g.zones.hand.length
  | .known .deckCount => pure g.zones.deck.length
  | .known .unitCount => pure g.residents.length
  | .known .deckTopGoldValue => pure (r.deckTopWorth g)
  | .known .targetGoldValue => pure (r.worthOfAll g.boosts targets)
  | .known .randomRange =>
    Play.throwDice (·.between (min s.least s.greatest) (max s.least s.greatest))
  | .known .randomDice => if s.base < 1 then pure 0 else Play.throwDice (·.between 1 s.base)

/-- A base times a multiplier, rounded. -/
def scaled (base : Int) (multiplier : Binary64) : Except NumberError Int := do
  let product := (← Binary64.ofInt base) * multiplier
  if product.isFinite then product.round else return 0

/-- The magnitude that a source stands for. -/
def resolve (s : ValueSource) (r : Rules) (results : ResultStack) (targets : List Card) :
    Play Int := do
  let base ← s.baseResult r results targets
  Play.calculate (scaled base s.multiplier)

end ValueSource

/-- The number that an amount stands for. -/
def Amount.resolve (a : Amount) (r : Rules) (results : ResultStack) : Play Int :=
  match a with
  | .fixed n => pure n
  | .computed s => s.resolve r results []

/-- The magnitude of an effect: that of its source if it is dynamic, and else its fixed value. -/
def Effect.magnitude (e : Effect) (r : Rules) (results : ResultStack) (targets : List Card) :
    Play Int :=
  match e.dynamic with
  | some s => if s.isFixed then pure e.value else s.resolve r results targets
  | none => pure e.value

end Treasury
