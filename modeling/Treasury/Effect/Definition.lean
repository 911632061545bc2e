import Treasury.Effect.Comparison
import Treasury.Effect.Kind
import Treasury.Numeric.Binary64

/-!
# Effect definitions

The data that cards and events carry. An effect says what to do, how much of it and to which cards;
a group guards effects by conditions that all have to hold, with other effects for when they do not.
Magnitudes may be computed from the game by a value source. Kinds may be words that this version
does not know.
-/

namespace Treasury

open Numeric (Binary64)

/-- A magnitude computed when its effect is resolved: a base read from the game times a multiplier,
rounded. -/
structure ValueSource where
  /-- What is read. -/
  kind : Word SourceKind := .known .fixed
  /-- The fixed base, the percentage or the number of sides of the die. -/
  base : Int := 0
  /-- What the base is multiplied by. -/
  multiplier : Binary64 := .one
  /-- One bound of a random number, meant as the lower one. -/
  least : Int := 0
  /-- The other bound of a random number. -/
  greatest : Int := 0
  deriving DecidableEq, Repr, Inhabited

/-- Whether a source gives its own base. -/
def ValueSource.isFixed (s : ValueSource) : Bool := s.kind = .known .fixed

/-- A fixed or a computed number. -/
inductive Amount where
  /-- A fixed number. -/
  | fixed (n : Int)
  /-- A computed number. -/
  | computed (source : ValueSource)
  deriving DecidableEq, Repr, Inhabited

/-- A predicate on the game or the previous result. -/
structure Condition where
  /-- What is looked at. -/
  kind : Word ConditionKind
  /-- The number it is compared with. -/
  value : Int := 0
  /-- The comparison, if it is not the natural one of the kind. -/
  comparison : Option Comparison := none
  /-- The card that is looked for, where the kind looks for a card. -/
  cardId : Option String := none
  deriving DecidableEq, Repr, Inhabited

/-- A single effect. -/
structure Effect where
  /-- What the effect does. -/
  kind : Word EffectKind
  /-- The fixed magnitude. -/
  value : Int := 0
  /-- The source of a computed magnitude, used for the fixed one unless it is fixed itself. -/
  dynamic : Option ValueSource := none
  /-- The cards it acts on. -/
  target : TargetKind := .none
  /-- The most cards it acts on; zero stands for all that are eligible. -/
  maxTargets : Int := 0
  /-- The place on the ladder of the treasure it creates. -/
  createGrade : Option Int := none
  /-- For how many turns it lasts. -/
  duration : Int := 0
  /-- The chance of a gamble, in percent. -/
  successChance : Int := 0
  /-- What a won gamble pays. -/
  successValue : Amount := .fixed 0
  /-- What a lost gamble pays. -/
  failValue : Amount := .fixed 0
  /-- The card or job it names. -/
  cardId : Option String := none
  /-- The rarity it names. -/
  cardRarity : Option String := none
  /-- The jobs it names. -/
  jobPool : Option String := none
  deriving DecidableEq, Repr, Inhabited

/-- Whether the magnitude is computed. -/
def Effect.isDynamic (e : Effect) : Bool :=
  match e.dynamic with
  | some source => !source.isFixed
  | none => false

/-- Effects guarded by conditions. -/
structure Group where
  /-- The conditions, all of which have to hold. -/
  conditions : List Condition := []
  /-- The effects if they hold. -/
  effects : List Effect := []
  /-- The effects if they do not. -/
  elseEffects : List Effect := []
  deriving DecidableEq, Repr, Inhabited

namespace Effect

/-- Draws cards. -/
def draw (count : Int) : Effect := { kind := .known .drawCard, value := count }

/-- Adds gold. -/
def gold (amount : Int) : Effect := { kind := .known .addGold, value := amount }

/-- An effect as large as the previous result. -/
def chained (kind : EffectKind) (source : SourceKind) (multiplier : Binary64) : Effect :=
  { kind := .known kind, dynamic := some { kind := .known source, multiplier } }

/-- Settles treasures. -/
def settle (target : TargetKind) (maxTargets : Int) : Effect :=
  { kind := .known .settleCard, target, maxTargets }

/-- Pays one of two amounts by chance. -/
def gamble (successChance : Int) (successValue failValue : Amount) : Effect :=
  { kind := .known .gamble, successChance, successValue, failValue }

end Effect

namespace Group

/-- Effects under conditions. -/
def when (conditions : List Condition) (effects elseEffects : List Effect) : Group :=
  { conditions, effects, elseEffects }

/-- Effects without conditions. -/
def always (effects : List Effect) : Group := { effects }

end Group

end Treasury
