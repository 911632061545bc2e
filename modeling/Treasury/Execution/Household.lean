import Treasury.Execution.Assignment
import Treasury.Game.Roster
import Treasury.Text.Case

/-!
# Effects on the household

Gaining, losing and promoting units. The unit that is lost or promoted is picked at random.
-/

namespace Treasury

/-- The job of a recruit, by the word that the definition hints at it with. -/
def Job.ofHint (hint : String) : Job :=
  match Text.lower hint with
  | "knight" => .knight
  | "bishop" => .bishop
  | "rook" => .rook
  | "queen" => .queen
  | _ => .pawn

namespace Assignment

/-- Recruits a young unit and gives it a place in a house, if there is one. -/
def gainUnit (a : Assignment) (r : Rules) : Play EffectResult := do
  let job := Job.ofHint (a.effect.cardId.getD "")
  let number := (← Play.game).residents.length + 1
  let index ← Roster.createUnit r s!"Recruit {number}" job .young
  discard (Roster.autoPlace r (.listed index))
  return a.done 1 a.magnitude

/-- Picks one of the units that satisfy `p`, with its place in the list. -/
def pickUnit (p : Resident → Bool) : Play (Option (Resident × Nat)) := do
  let units := (← Play.game).residents.zipIdx.filter fun (u, _) => p u
  Play.throwDice (·.pick units)

/-- Lets a unit die. Without units it fails. -/
def removeUnit (a : Assignment) (r : Rules) : Play EffectResult := do
  match ← pickUnit fun _ => true with
  | none => return a.failed
  | some (_, index) =>
    Roster.killUnit r (.listed index)
    return a.done 1 a.magnitude

/-- Asks for a free promotion of a unit that may be promoted. Without one it fails. -/
def freePromotion (a : Assignment) (r : Rules) : Play EffectResult := do
  match ← pickUnit (·.canPromote r.config.maxPromotionLevel) with
  | none => return a.failed
  | some (_, index) =>
    let granted ← Roster.requestFreePromotion r (.listed index)
    return { kind := a.effect.kind, success := granted, count := if granted then 1 else 0,
             value := a.magnitude }

/-- Raises the level of a unit, at most to the highest one. Without units it fails. -/
def addPromotionLevel (a : Assignment) (r : Rules) : Play EffectResult := do
  match ← pickUnit fun _ => true with
  | none => return a.failed
  | some (u, index) =>
    let level := min r.config.maxPromotionLevel (u.level + a.magnitude)
    Roster.setPromotionLevel r (.listed index) level
    return a.done 1 a.magnitude

end Assignment

end Treasury
