import Treasury.Activation.Result
import Treasury.Effect.Definition
import Treasury.Game.Table

/-!
# Assignments

An assignment is an effect ready to be carried out: its magnitude is settled and its targets are
picked. Carrying it out is a `Play` that answers with a result; the modules beside this one hold one
function for each kind of effect.
-/

namespace Treasury

/-- An effect ready to be carried out. -/
structure Assignment where
  /-- The effect. -/
  effect : Effect
  /-- How much of it. -/
  magnitude : Int
  /-- The results of the activation so far. -/
  results : ResultStack := {}
  /-- The cards it acts on. -/
  targets : List Card := []
  deriving DecidableEq, Inhabited

namespace Assignment

/-- The result of an effect that was carried out. -/
def done (a : Assignment) (count value : Int) : EffectResult :=
  { kind := a.effect.kind, success := true, count, value }

/-- The result of an effect that was carried out in full: it counts its targets and is worth its
magnitude. -/
def doneInFull (a : Assignment) : EffectResult := a.done a.targets.length a.magnitude

/-- The result of an effect that could not be carried out. -/
def failed (a : Assignment) : EffectResult := .failed a.effect.kind

/-- The magnitude if it is positive, and a default otherwise. -/
def magnitudeOr (a : Assignment) (default : Int) : Int :=
  if a.magnitude > 0 then a.magnitude else default

/-- A positive default makes the magnitude positive. -/
theorem magnitudeOr_pos (a : Assignment) {default : Int} (h : 0 < default) :
    0 < a.magnitudeOr default := by
  unfold magnitudeOr
  split
  · next hpos => exact hpos
  · exact h

end Assignment

end Treasury
