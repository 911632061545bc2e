import Treasury.Card.Grade

/-!
# Cards in play

A card in play is a copy of a definition. Two copies count as the same card when their instance ids
agree, and this is what looking a card up in a pile goes by; the serial number tells physical copies
apart even where a host gave two of them one instance id. A boost belongs to the physical copy, and
`Boosts` holds the boosts of this turn by serial number, so a copy keeps its boost wherever it goes.
-/

namespace Treasury

/-- A copy of a card. -/
structure Card where
  /-- The number of the physical copy. -/
  serial : Nat
  /-- The id by which players and hosts name the copy. -/
  instanceId : String
  /-- The id of its definition. -/
  cardId : String
  /-- Whether the copy is removed at the end of the turn. -/
  temporary : Bool := false
  /-- The unit that owns the copy. -/
  owner : Option String := none
  deriving DecidableEq, Repr, Inhabited

/-- Whether two copies count as the same card. -/
def Card.same (a b : Card) : Bool := a.instanceId = b.instanceId

/-- Cards in order. The first card of a deck is its top. -/
abbrev Pile := List Card

namespace Pile

/-- Whether a pile holds a card that counts as the given one. -/
def holds (p : Pile) (c : Card) : Bool := p.any (·.same c)

/-- The pile without its first card that counts as the given one. -/
def without (p : Pile) (c : Card) : Pile := p.eraseP (·.same c)

/-- The pile with its first card that counts as the given one replaced. -/
def exchanged (p : Pile) (c new : Card) : Pile := p.set (p.findIdx (·.same c)) new

/-- The first card of the given instance id. -/
def named? (p : Pile) (instanceId : String) : Option Card :=
  List.find? (·.instanceId = instanceId) p

/-- A pile that does not hold a card is not changed by taking the card away. -/
theorem without_eq_self {p : Pile} {c : Card} (h : p.holds c = false) : p.without c = p := by
  simp only [holds, List.any_eq_false] at h
  exact List.eraseP_of_forall_not h

/-- Taking away a card that is there leaves one card fewer. -/
theorem length_without {p : Pile} {c : Card} (h : p.holds c) :
    (p.without c).length + 1 = p.length := by
  simp only [holds, List.any_eq_true] at h
  obtain ⟨d, hd, hs⟩ := h
  have hpos : 0 < p.length := List.length_pos_of_mem hd
  have hlen := List.length_eraseP_of_mem (p := (·.same c)) hd hs
  simp only [without, hlen]
  omega

/-- Exchanging a card keeps the number of cards. -/
@[simp]
theorem length_exchanged (p : Pile) (c new : Card) : (p.exchanged c new).length = p.length := by
  simp [exchanged]

/-- The first cards of a pile; a negative number counts from the end and says how many are left. -/
def firstCards (p : Pile) (n : Int) : Pile :=
  if n ≥ 0 then p.take n.toNat else p.take (p.length - n.natAbs)

/-- What follows the first cards of a pile. -/
def afterCards (p : Pile) (n : Int) : Pile := p.drop (p.firstCards n).length

/-- The first cards and what follows them make up the pile. -/
theorem firstCards_append_afterCards (p : Pile) (n : Int) :
    p.firstCards n ++ p.afterCards n = p := by
  have key : ∀ k, p.take k ++ p.drop (p.take k).length = p := by
    intro k
    rw [List.length_take]
    rcases Nat.le_total k p.length with h | h
    · rw [Nat.min_eq_left h, List.take_append_drop]
    · rw [Nat.min_eq_right h, List.drop_length, List.take_of_length_le h, List.append_nil]
  unfold afterCards firstCards
  split <;> exact key _

end Pile

/-- The boosts of this turn, by the serial number of the boosted copy, latest first. -/
abbrev Boosts := List (Nat × Grade)

namespace Boosts

/-- The grade that a copy is boosted to. -/
def grade? (b : Boosts) (c : Card) : Option Grade := b.lookup c.serial

/-- The boosts after a copy is boosted to a grade. -/
def boost (b : Boosts) (c : Card) (g : Grade) : Boosts := (c.serial, g) :: b

/-- A boosted copy has the grade it was boosted to. -/
@[simp]
theorem grade?_boost_self (b : Boosts) (c : Card) (g : Grade) :
    (b.boost c g).grade? c = some g := by
  simp [boost, grade?]

/-- Boosting a copy leaves the others. -/
theorem grade?_boost_of_ne {c d : Card} (h : d.serial ≠ c.serial) (b : Boosts) (g : Grade) :
    (b.boost c g).grade? d = b.grade? d := by
  simp [boost, grade?, List.lookup_cons, beq_eq_false_iff_ne.mpr h]

end Boosts

end Treasury
