import Treasury.Activation.Engine

/-!
# Who picks the targets

The rules say whether targets are picked for the player (`Rules.selecting`). That matters to the
engine when it comes to an effect whose targets have to be picked, and to nothing else: what effects
do to the table, once they have their targets, is the same (`Assignment.execute_selecting`), and so
are the effects that are queued and their magnitudes (`Engine.expand_selecting`).
-/

namespace Treasury

/-- The rules with targets that are picked for the player, or not. -/
def Rules.selecting (r : Rules) (auto : Bool) : Rules :=
  { r with config := { r.config with autoSelect := auto } }

variable (r : Rules) (auto : Bool)

/-! ## Loops of effects -/

theorem Deck.take_selecting (n : Nat) : take (r.selecting auto) n = take r n := by
  induction n with
  | zero => rfl
  | succ n ih =>
    unfold take
    rw [ih]
    rfl

theorem Deck.settled_selecting (boosts : Boosts) (cs : List Card) (z : Zones) :
    settled (r.selecting auto) boosts cs z = settled r boosts cs z := by
  induction cs generalizing z with
  | nil => rfl
  | cons c rest ih =>
    unfold settled
    simp only [ih]
    rfl

theorem Zones.dealt_selecting (cs : List Card) (z : Zones) :
    dealt (r.selecting auto) cs z = dealt r cs z := by
  induction cs generalizing z with
  | nil => rfl
  | cons c rest ih =>
    unfold dealt
    simp only [ih]
    rfl

namespace Assignment

theorem destroyAll_selecting (cs : List Card) :
    destroyAll (r.selecting auto) cs = destroyAll r cs := by
  induction cs with
  | nil => rfl
  | cons c rest ih =>
    unfold destroyAll
    rw [ih]
    rfl

theorem addCopies_selecting (cardId : String) (n : Nat) :
    addCopies (r.selecting auto) cardId n = addCopies r cardId n := by
  induction n with
  | zero => rfl
  | succ n ih =>
    unfold addCopies
    rw [ih]
    rfl

theorem boosted_selecting (steps : Nat) (cs : List Card) (boosts : Boosts) :
    boosted (r.selecting auto) steps cs boosts = boosted r steps cs boosts := by
  induction cs generalizing boosts with
  | nil => rfl
  | cons c rest ih =>
    unfold boosted
    simp only [ih]
    rfl

theorem upgraded_selecting (cs : List Card) (g : GameState) :
    upgraded (r.selecting auto) cs g = upgraded r cs g := by
  induction cs generalizing g with
  | nil => rfl
  | cons c rest ih =>
    unfold upgraded
    simp only [ih]
    rfl

/-! ## Every effect -/

/-- What an effect does to its targets is the same whoever picked them. -/
@[simp]
theorem execute_selecting (a : Assignment) : a.execute (r.selecting auto) = a.execute r := by
  unfold execute
  split
  · next kind _ =>
    -- Only effects with a loop that looks into the rules need more than unfolding.
    cases kind
    case drawCard =>
      unfold executeKind drawCard Deck.draw
      simp only [Deck.take_selecting]
      rfl
    case drawUntil =>
      unfold executeKind drawUntil Deck.draw
      simp only [Deck.take_selecting]
      rfl
    case destroyCard =>
      unfold executeKind destroyCard
      simp only [destroyAll_selecting]
    case destroyPollution =>
      unfold executeKind destroyPollution
      simp only [destroyAll_selecting]
      rfl
    case addCardToDeck =>
      unfold executeKind addCardToDeck
      simp only [addCopies_selecting]
      rfl
    case boostTreasure =>
      unfold executeKind boostTreasure
      simp only [boosted_selecting]
    case permanentUpgrade =>
      unfold executeKind upgradeTreasure
      simp only [funext (upgraded_selecting r auto a.targets)]
    case settleCard =>
      unfold executeKind settle Deck.settle
      simp only [Deck.settled_selecting]
      rfl
    case revealAndGain =>
      unfold executeKind revealAndGain
      simp only [Zones.dealt_selecting]
      rfl
    all_goals rfl
  · rfl

end Assignment

/-- The same targets are collected without asking. -/
@[simp]
theorem Effect.autoTargets_selecting (e : Effect) (source : Option Card) :
    e.autoTargets (r.selecting auto) source = e.autoTargets r source := rfl

/-- The same effects are queued, with the same magnitudes. -/
@[simp]
theorem Engine.expand_selecting (source : Option Card) (groups : List Group) :
    expand (r.selecting auto) source groups = expand r source groups := by
  induction groups with
  | nil => rfl
  | cons grp rest ih =>
    unfold expand
    rw [ih]
    rfl

end Treasury
