import Treasury.Activation.Machine
import Treasury.Json.Value

/-!
# Summaries

What a client is shown of cards, units, results, requests and games, as JSON. A summary of a game
counts the cards that are hidden from the player and lists the others.
-/

namespace Treasury

/-- The summary of a card. -/
def Card.summary (boosts : Boosts) (c : Card) : Json := .obj [
  ("card_id", .str c.cardId),
  ("instance_id", .str c.instanceId),
  ("is_temporary", .bool c.temporary),
  ("boosted_grade", .ofText? ((boosts.grade? c).map (·.name)))]

/-- The summary of a card that may be missing. -/
def Card.summary? (boosts : Boosts) : Option Card → Json
  | some c => c.summary boosts
  | none => .null

/-- The summary of a unit. -/
def Resident.summary (u : Resident) : Json := .obj [
  ("unit_id", .str u.unitId),
  ("name", .str u.name),
  ("job", .str (Vocabulary.name u.job)),
  ("stage", .str (Vocabulary.name u.stage)),
  ("promotion_level", .int u.level),
  ("combat_power", .int u.combatPower),
  ("house_id", .ofText? u.houseId)]

/-- The summary of an effect of later turns. -/
def Scheduled.summary (s : Scheduled) : Json := .obj [
  ("effect_id", .str s.effectId),
  ("kind", .str (Vocabulary.name s.kind)),
  ("value", .int s.value),
  ("remaining_turns", .int s.remainingTurns)]

/-- The summary of a game, doubles shown by a function. -/
def GameState.summaryWith (double : Numeric.Binary64 → Json) (g : GameState) : Json := .obj [
  ("game_id", .str g.gameId),
  ("turn_number", .int g.turn),
  ("gold", .int g.gold),
  ("actions_remaining", .int g.actions),
  ("deck_count", .int g.zones.deck.length),
  ("hand", .list (·.summary g.boosts) g.zones.hand),
  ("discard_count", .int g.zones.discard.length),
  ("play_area", .list (·.summary g.boosts) g.zones.play),
  ("units", .list (·.summary) g.residents),
  ("active_effects", .list (·.summary) g.scheduled),
  ("gold_multiplier", double g.goldMultiplier),
  ("gold_bonus", .int g.goldBonus),
  ("pollution_ignored", .bool g.pollutionIgnored),
  ("promotion_discount", .int g.promotionDiscount)]

/-- The summary of a game. -/
def GameState.summary (g : GameState) : Json := g.summaryWith .float

/-- The summary of a result. -/
def EffectResult.summary (r : EffectResult) : Json := .obj [
  ("kind", .str r.kind.name),
  ("success", .bool r.success),
  ("count", .int r.count),
  ("value", .int r.value)]

/-- The summary of a request. -/
def TargetRequest.summary (boosts : Boosts) (q : TargetRequest) : Json := .obj [
  ("target_kind", .str (Vocabulary.name q.targetKind)),
  ("max_selections", .int q.maxSelections),
  ("candidates", .list (·.summary boosts) q.candidates),
  ("effect_kind", .str q.effectKind.name)]

/-- The summary of a request that may be missing. -/
def TargetRequest.summary? (boosts : Boosts) : Option TargetRequest → Json
  | some q => q.summary boosts
  | none => .null

/-- The summary of a queued effect. -/
def Pending.summary (p : Pending) : Json := .obj [
  ("kind", .str p.effect.kind.name),
  ("speculative_value", .int p.speculative),
  ("target", .str (Vocabulary.name p.effect.target))]

/-- The members of the summary of an outcome. -/
def Outcome.members (boosts : Boosts) (o : Outcome) : List (String × Json) := [
  ("state", .str o.phase.name),
  ("results", .list (·.summary) o.results),
  ("target_request", TargetRequest.summary? boosts o.request),
  ("source_card", Card.summary? boosts o.source)]

/-- The summary of an outcome. -/
def Outcome.summary (boosts : Boosts) (o : Outcome) : Json := .obj (o.members boosts)

end Treasury
