import Treasury.Effect.Definition
import Treasury.Game.Table

/-!
# Targets

Which cards an effect acts on. Four kinds of target are picked by the player among hand cards, and
the engine pauses with a `TargetRequest` for them; all others are collected without asking.
-/

namespace Treasury

namespace TargetKind

/-- Whether the player picks the targets. -/
def needsSelection : TargetKind → Bool
  | .handCard | .handTreasure | .handPollution | .handAction => true
  | _ => false

/-- The kind of card that a target has to be, where it has to be of one kind. -/
def wanted? : TargetKind → Option CardKind
  | .handTreasure | .allHandTreasure => some .treasure
  | .handPollution | .allHandPollution => some .pollution
  | .handAction => some .action
  | _ => Option.none

end TargetKind

/-- A request to the player to pick at most `maxSelections` of the candidates. -/
structure TargetRequest where
  /-- The kind of target that is asked for. -/
  targetKind : TargetKind
  /-- The most cards that may be picked. -/
  maxSelections : Int
  /-- The cards to pick from. -/
  candidates : List Card
  /-- The effect that the cards are for. -/
  effectKind : Word EffectKind
  deriving DecidableEq, Repr, Inhabited

/-- The instance ids of the candidates. -/
def TargetRequest.candidateIds (q : TargetRequest) : List String := q.candidates.map (·.instanceId)

/-- A card that a player picks: by its instance id, or handed over as it is. -/
inductive Pick where
  /-- The candidate of an instance id. -/
  | named (instanceId : String)
  /-- The candidate that counts as a card. -/
  | card (c : Card)
  deriving DecidableEq, Repr, Inhabited

/-- The instance id of a picked card. Nothing else is read of a card that is handed over. -/
def Pick.instanceId : Pick → String
  | .named id => id
  | .card c => c.instanceId

/-- The instance ids of picked cards. -/
def Pick.ids (picks : List Pick) : List String := picks.map (·.instanceId)

namespace Effect

/-- The most cards that may be picked among a number of candidates. -/
def selectionCap (e : Effect) (candidates : Nat) : Int :=
  if e.maxTargets > 0 then e.maxTargets else candidates

/-- The hand cards that may be picked, in hand order. A permanent upgrade passes temporary cards
over. -/
def selectable (e : Effect) (r : Rules) (g : GameState) : List Card :=
  let eligible :=
    if e.target = .handCard then g.zones.hand
    else match e.target.wanted? with
      | some kind => g.zones.hand.filter fun c => r.kindOf c = some kind
      | none => []
  if e.kind = .known .permanentUpgrade then eligible.filter (!·.temporary) else eligible

/-- The request for an effect with the given candidates. -/
def request (e : Effect) (candidates : List Card) : TargetRequest where
  targetKind := e.target
  maxSelections := e.selectionCap candidates.length
  candidates
  effectKind := e.kind

/-- How many hand cards are picked at random. -/
def randomCount (e : Effect) (handSize : Nat) : Int :=
  min (if e.maxTargets = 0 then 1 else e.maxTargets) handSize

/-- Picks hand cards at random. -/
def randomTargets (e : Effect) (hand : Pile) : Play (List Card) := do
  if hand.isEmpty then pure []
  else
    match ← Play.throwDice (·.sample hand (e.randomCount hand.length)) with
    | some cs => pure cs
    | none => throw .sampleSize

/-- The targets that are collected without asking. -/
def autoTargets (e : Effect) (r : Rules) (source : Option Card) : Play (List Card) := do
  let g ← Play.game
  match e.target with
  | .allHandTreasure | .allHandPollution =>
    pure (g.zones.hand.filter fun c => r.kindOf c = e.target.wanted?)
  | .self => pure source.toList
  | .deckTop => pure g.deckTop?.toList
  | .random => e.randomTargets g.zones.hand
  | _ => pure []

end Effect

end Treasury
