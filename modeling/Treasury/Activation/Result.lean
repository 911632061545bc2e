import Treasury.Effect.Kind

/-!
# Results of effects

Every executed effect leaves a result, and the results of an activation form a stack that later
effects read: "draw as many cards as were just settled". An empty stack reads as zero.
-/

namespace Treasury

/-- What became of an effect. -/
structure EffectResult where
  /-- The kind of the effect. -/
  kind : Word EffectKind
  /-- Whether the effect could do what it was asked to. -/
  success : Bool
  /-- How many cards or units it processed. -/
  count : Int := 0
  /-- How much gold, or what other magnitude, it produced. -/
  value : Int := 0
  deriving DecidableEq, Repr, Inhabited

/-- The result of an effect that did nothing. -/
def EffectResult.failed (kind : Word EffectKind) : EffectResult := { kind, success := false }

/-- The results of an activation, oldest first. -/
structure ResultStack where
  /-- The results, oldest first. -/
  items : List EffectResult := []
  deriving DecidableEq, Repr, Inhabited

namespace ResultStack

/-- The stack with a result on top. -/
def push (s : ResultStack) (r : EffectResult) : ResultStack := { items := s.items ++ [r] }

/-- The latest result. -/
def top? (s : ResultStack) : Option EffectResult := s.items.getLast?

/-- The count of the latest result. -/
def lastCount (s : ResultStack) : Int := (s.top?.map (·.count)).getD 0

/-- The value of the latest result. -/
def lastValue (s : ResultStack) : Int := (s.top?.map (·.value)).getD 0

/-- Whether there is a latest result and it was a success. -/
def lastSucceeded (s : ResultStack) : Bool := (s.top?.map (·.success)).getD false

/-- What was pushed last is on top. -/
@[simp]
theorem top?_push (s : ResultStack) (r : EffectResult) : (s.push r).top? = some r := by
  simp [push, top?]

/-- A push adds to the end of the results. -/
@[simp]
theorem items_push (s : ResultStack) (r : EffectResult) : (s.push r).items = s.items ++ [r] := rfl

end ResultStack

end Treasury
