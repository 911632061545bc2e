import Treasury.Game.Card

/-!
# The zones of the table

A card in play lies in one of four piles: the deck, the hand, the discard pile or the play area.
`Zones` holds the four, with the moves of single cards between them that need neither dice nor
definitions.
-/

namespace Treasury

/-- One of the four piles. -/
inductive Zone where
  | deck
  | hand
  | discard
  | play
  deriving DecidableEq, Repr, Inhabited

/-- The four piles of a player. -/
structure Zones where
  /-- The cards to draw from, the top first. -/
  deck : Pile := []
  /-- The cards in hand. -/
  hand : Pile := []
  /-- The cards laid away. -/
  discard : Pile := []
  /-- The action cards played. -/
  play : Pile := []
  deriving DecidableEq, Repr, Inhabited

namespace Zones

/-- The pile of a zone. -/
def pile (z : Zones) : Zone → Pile
  | .deck => z.deck
  | .hand => z.hand
  | .discard => z.discard
  | .play => z.play

/-- The zones with one pile changed. -/
def update (z : Zones) (zone : Zone) (f : Pile → Pile) : Zones :=
  match zone with
  | .deck => { z with deck := f z.deck }
  | .hand => { z with hand := f z.hand }
  | .discard => { z with discard := f z.discard }
  | .play => { z with play := f z.play }

/-- A changed pile is what the change makes of it. -/
@[simp]
theorem pile_update_self (z : Zones) (zone : Zone) (f : Pile → Pile) :
    (z.update zone f).pile zone = f (z.pile zone) := by
  cases zone <;> rfl

/-- Changing a pile leaves the others. -/
theorem pile_update_of_ne (z : Zones) {zone other : Zone} (h : other ≠ zone) (f : Pile → Pile) :
    (z.update zone f).pile other = z.pile other := by
  cases zone <;> cases other <;> simp_all [update, pile]

/-- The cards that make up the player's whole deck: those to draw, in hand and laid away. -/
def wholeDeck (z : Zones) : Pile := z.deck ++ z.hand ++ z.discard

/-- The cards of all four zones. -/
def cards (z : Zones) : Pile := z.deck ++ z.hand ++ z.discard ++ z.play

/-- The first zone, from the deck to the play area, that holds a card. -/
def zoneOf? (z : Zones) (c : Card) : Option Zone :=
  [.deck, .hand, .discard, .play].find? fun zone => (z.pile zone).holds c

/-- The first of the given zones with a card that satisfies `p`, and that card. -/
def search (z : Zones) (p : Card → Bool) : List Zone → Option (Zone × Card)
  | [] => none
  | zone :: rest =>
    match (z.pile zone).find? p with
    | some c => some (zone, c)
    | none => z.search p rest

/-- Hand cards put under the deck one after another, with how many there were. Cards that are not in
hand are passed over. -/
def toBottom (z : Zones) : List Card → Nat × Zones
  | [] => (0, z)
  | c :: rest =>
    if z.hand.holds c then
      let moved := toBottom { z with hand := z.hand.without c, deck := z.deck ++ [c] } rest
      (moved.1 + 1, moved.2)
    else z.toBottom rest

/-- A hand card laid away; a card that is not in hand stays where it is. -/
def layAway (z : Zones) (c : Card) : Zones :=
  if z.hand.holds c then { z with hand := z.hand.without c, discard := z.discard ++ [c] } else z

/-- The zones without the cards of an owner. -/
def withoutOwner (z : Zones) (owner : String) : Zones where
  deck := z.deck.filter (·.owner ≠ some owner)
  hand := z.hand.filter (·.owner ≠ some owner)
  discard := z.discard.filter (·.owner ≠ some owner)
  play := z.play.filter (·.owner ≠ some owner)

/-- Laying a card away keeps the number of cards. -/
theorem length_cards_layAway (z : Zones) (c : Card) :
    (z.layAway c).cards.length = z.cards.length := by
  unfold layAway
  split
  · next h =>
    have hlen := Pile.length_without h
    simp only [cards, List.length_append, List.length_cons, List.length_nil]
    omega
  · rfl

/-- Putting cards under the deck keeps the number of cards. -/
theorem length_cards_toBottom (z : Zones) (cs : List Card) :
    (z.toBottom cs).2.cards.length = z.cards.length := by
  induction cs generalizing z with
  | nil => rfl
  | cons c rest ih =>
    unfold toBottom
    split
    · next h =>
      have hlen := Pile.length_without h
      have hrest := ih { z with hand := z.hand.without c, deck := z.deck ++ [c] }
      simp only [cards, List.length_append, List.length_cons, List.length_nil] at hrest ⊢
      omega
    · exact ih z

end Zones

end Treasury
