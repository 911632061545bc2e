import Treasury.Game.Table

/-!
# The household

The services that keep the units and the houses. A unit is named by its place in the list of units;
a host may also speak of a unit that is not in the list, which then changes nothing but the houses
and the cards it owns.
-/

namespace Treasury

/-- A unit that a service is asked about. -/
inductive Member where
  /-- The unit at a place of the list. -/
  | listed (index : Nat)
  /-- A unit that is not in the list. -/
  | outside (unit : Resident)
  deriving DecidableEq, Repr, Inhabited

/-- The unit that is meant. -/
def Member.resident (m : Member) (g : GameState) : Resident :=
  match m with
  | .listed i => g.residents.getD i default
  | .outside u => u

namespace Roster

/-- Writes a changed unit back to its place in the list. -/
def store (m : Member) (u : Resident) : Play Unit :=
  match m with
  | .listed i => Play.changeGame fun g => { g with residents := g.residents.set i u }
  | .outside _ => pure ()

/-- The houses after a unit takes its first free place, and the house that it is in. -/
def placed (u : Resident) : List House → Option (String × List House)
  | [] => none
  | h :: rest =>
    match h.admit? u.stage u.unitId with
    | some admitted => some (h.houseId, admitted :: rest)
    | none => (placed u rest).map fun (id, rest) => (id, h :: rest)

/-- The houses after a unit leaves its first place in the house it remembers, if it has one. -/
def vacated (u : Resident) : List House → Option (List House)
  | [] => none
  | h :: rest =>
    match if some h.houseId = u.houseId then h.release? u.unitId else none with
    | some released => some (released :: rest)
    | none => (vacated u rest).map (h :: ·)

/-- Gives a unit the first free place for its stage of life, and says whether there was one. -/
def autoPlace (r : Rules) (m : Member) : Play Bool :=
  r.serve .autoPlace do
    let g ← Play.game
    let u := m.resident g
    match placed u g.houses with
    | some (id, houses) =>
      Play.changeGame fun g => { g with houses }
      store m { u with houseId := some id }
      return true
    | none => return false

/-- Takes a unit out of its house, and gives the unit as it is afterwards and whether it had a place
there. -/
def removeUnit (r : Rules) (m : Member) : Play (Resident × Bool) :=
  r.serve .removeUnit do
    let g ← Play.game
    let u := m.resident g
    match vacated u g.houses with
    | some houses =>
      Play.changeGame fun g => { g with houses }
      store m { u with houseId := none }
      return ({ u with houseId := none }, true)
    | none => return (u, false)

/-- Adds a unit and gives its place in the list. -/
def createUnit (r : Rules) (name : String) (job : Job) (stage : Stage) : Play Nat :=
  r.serve .createUnit do
    let unitId ← Play.makeFromGame (·.newUnitId)
    let combatPower ← Play.calculate (Resident.powerOf job stage 0)
    let index := (← Play.game).residents.length
    Play.changeGame fun g =>
      { g with residents := g.residents ++ [{ unitId, name, job, stage, combatPower }] }
    return index

/-- Lets a unit die: it leaves its house, its cards leave all zones, and the first unit equal to it
leaves the list. -/
def killUnit (r : Rules) (m : Member) : Play Unit :=
  r.serve .killUnit do
    let u := m.resident (← Play.game)
    -- The list is searched for the unit as it is once it has left its house.
    let u ← if u.houseId.getD "" = "" then pure u else Prod.fst <$> removeUnit r m
    Play.changeZones (·.withoutOwner u.unitId)
    Play.changeGame fun g => { g with residents := g.residents.erase u }

/-- Asks for a free promotion and says whether the unit may be promoted. -/
def requestFreePromotion (r : Rules) (m : Member) : Play Bool :=
  r.serve .requestFreePromotion do
    let u := m.resident (← Play.game)
    if u.canPromote r.config.maxPromotionLevel then
      modify fun t => { t with promotions := t.promotions ++ [u.unitId] }
      return true
    else return false

/-- Sets the level of a unit and with it its combat power. -/
def setPromotionLevel (r : Rules) (m : Member) (level : Int) : Play Unit :=
  r.serve .setPromotionLevel do
    let u := { m.resident (← Play.game) with level }
    store m u
    let combatPower ← Play.calculate (Resident.powerOf u.job u.stage level)
    store m { u with combatPower }

end Roster

end Treasury
