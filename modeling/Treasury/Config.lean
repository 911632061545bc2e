/-!
# Configuration

The settings of an engine: how many cards a hand may hold before drawing stops, how far units may be
promoted, what happens when an activation starts while another is in flight, whether targets are
selected without asking, and the seed of the dice.
-/

namespace Treasury

/-- What happens when an activation starts while another is in flight. -/
inductive ReentryPolicy where
  /-- The one in flight is discarded. -/
  | overwrite
  /-- The new one is refused. -/
  | reject
  deriving DecidableEq, Repr, Inhabited

/-- The word for a policy. -/
def ReentryPolicy.name : ReentryPolicy → String
  | .overwrite => "overwrite"
  | .reject => "reject"

/-- The settings of an engine. -/
structure Config where
  /-- Drawing stops at this many hand cards. -/
  maxHandSize : Int := 10
  /-- Units are promoted up to this level. -/
  maxPromotionLevel : Int := 3
  /-- What happens when an activation starts while another is in flight. -/
  policy : ReentryPolicy := .overwrite
  /-- Whether the first eligible cards are selected without asking. -/
  autoSelect : Bool := false
  /-- The seed of the dice; without one the host seeds them. -/
  seed : Option Int := none
  deriving DecidableEq, Repr, Inhabited

end Treasury
