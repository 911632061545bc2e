import Treasury.Numeric.Binary64
import Treasury.Vocabulary

/-!
# Units and houses

The units of a household have a job, a stage of life and a promotion level, from which their combat
power follows. A house has two places for adults and one for a child. The unit remembers its house
and the house its units; `Game.Roster` keeps the two in step.
-/

namespace Treasury

open Numeric (Binary64 NumberError twoTo)

/-- What a unit does. -/
inductive Job where
  | none
  | pawn
  | knight
  | bishop
  | rook
  | queen
  deriving DecidableEq, Repr, Inhabited

instance : Vocabulary Job where
  all := [.none, .pawn, .knight, .bishop, .rook, .queen]
  name
    | .none => "none"
    | .pawn => "pawn"
    | .knight => "knight"
    | .bishop => "bishop"
    | .rook => "rook"
    | .queen => "queen"

/-- The combat power that a job gives at level zero. -/
def Job.power : Job → Int
  | .none => 0
  | .pawn => 10
  | .knight => 30
  | .bishop => 15
  | .rook => 25
  | .queen => 35

/-- The stage of life of a unit. -/
inductive Stage where
  | child
  | young
  | middle
  | old
  deriving DecidableEq, Repr, Inhabited

instance : Vocabulary Stage where
  all := [.child, .young, .middle, .old]
  name
    | .child => "child"
    | .young => "young"
    | .middle => "middle"
    | .old => "old"

/-- The share of its power that a stage of life leaves to a unit. -/
def Stage.share : Stage → Binary64
  | .old => .finite false (3 * twoTo 51) (-53)
  | _ => .one

/-- A unit of the household. -/
structure Resident where
  /-- The id of the unit. -/
  unitId : String
  /-- The name shown to players. -/
  name : String
  /-- What the unit does. -/
  job : Job := .pawn
  /-- Its stage of life. -/
  stage : Stage := .young
  /-- How often it was promoted. -/
  level : Int := 0
  /-- Whether it was promoted this turn. -/
  promotedThisTurn : Bool := false
  /-- Whether it is ill. -/
  hasDisease : Bool := false
  /-- Its combat power. -/
  combatPower : Int := 0
  /-- The house it lives in. -/
  houseId : Option String := none
  deriving DecidableEq, Repr, Inhabited

namespace Resident

/-- The combat power of a job, a stage and a level: ten for each level on top of that of the job,
three quarters of it in old age, nothing for children and without a job. -/
def powerOf (job : Job) (stage : Stage) (level : Int) : Except NumberError Int :=
  if stage = .child ∨ job = .none then .ok 0
  else do
    let base ← Binary64.ofInt (job.power + level * 10)
    (base * stage.share).round

/-- Whether a unit may be promoted: it is grown up and not old, was not promoted this turn, is not
ill and is below the highest level. -/
def canPromote (u : Resident) (maxLevel : Int) : Bool :=
  (u.stage = .young || u.stage = .middle) && !u.promotedThisTurn && !u.hasDisease &&
    u.level < maxLevel

end Resident

/-- A house with two places for adults and one for a child. -/
structure House where
  /-- The id of the house. -/
  houseId : String
  /-- The unit in the first place for adults. -/
  adultA : Option String := none
  /-- The unit in the second place for adults. -/
  adultB : Option String := none
  /-- The unit in the place for a child. -/
  child : Option String := none
  deriving DecidableEq, Repr, Inhabited

namespace House

/-- The house with a unit in its first free place for the stage, if there is one. -/
def admit? (h : House) (stage : Stage) (unitId : String) : Option House :=
  if stage = .child then
    if h.child.isNone then some { h with child := some unitId } else none
  else if h.adultA.isNone then some { h with adultA := some unitId }
  else if h.adultB.isNone then some { h with adultB := some unitId }
  else none

/-- The house with the first place of a unit freed, if it has one there. -/
def release? (h : House) (unitId : String) : Option House :=
  if h.adultA = some unitId then some { h with adultA := none }
  else if h.adultB = some unitId then some { h with adultB := none }
  else if h.child = some unitId then some { h with child := none }
  else none

end House

end Treasury
