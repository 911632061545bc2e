import Treasury.Proofs.Execution.Reordering

/-!
# Drawing

Cards are drawn one by one, and an empty deck is refilled on the way. Here a draw is said as a
whole: how many cards come, which ones, and what is left in the piles. The deck is refilled once at
most, and not before a card is wanted that it does not have.

* `Deck.yield`: how many cards a draw brings into a hand that is not full.
* `Deck.exec_take_of_le_or_bare`, `Deck.exec_take_of_lt`: taking cards without and with a refill.
* `Deck.exec_draw_exact`: the cards of a draw and the table after it.
* `Assignment.hand_le_iff_of_draws`: when the hand is too large after an effect that draws. A full
  hand is not added to, but a hand with room for one card takes all that come.
-/

namespace Treasury

/-- The table after the hand has taken the first `n` cards of the deck. -/
def Table.takingUp (t : Table) (n : Nat) : Table :=
  let z := t.game.zones
  { t with game := { t.game with
    zones := { z with deck := z.deck.drop n, hand := z.hand ++ z.deck.take n } } }

/-- The table after the discard pile was shuffled to be the deck. -/
def Table.refilled (t : Table) : Table :=
  let shuffled := t.dice.shuffle t.game.zones.discard
  { t with
    game := { t.game with zones := { t.game.zones with deck := shuffled.1, discard := [] } }
    dice := shuffled.2 }

@[simp]
theorem Table.takingUp_zero (t : Table) : t.takingUp 0 = t := by
  simp [takingUp]

/-- The hand may take cards in two parts. -/
theorem Table.takingUp_takingUp (t : Table) (m n : Nat) :
    (t.takingUp m).takingUp n = t.takingUp (m + n) := by
  simp [takingUp, List.take_add]

theorem Table.deck_takingUp_one {t : Table} {c : Card} {rest : List Card}
    (hdeck : t.game.zones.deck = c :: rest) : (t.takingUp 1).game.zones.deck = rest := by
  simp [takingUp, hdeck]

/-- The hand takes no more cards than the deck has. -/
theorem Table.takingUp_min (t : Table) (n : Nat) :
    t.takingUp (min n t.game.zones.deck.length) = t.takingUp n := by
  rcases Nat.le_total n t.game.zones.deck.length with h | h
  · rw [Nat.min_eq_left h]
  · simp only [takingUp, Nat.min_eq_right h, List.take_length, List.drop_length,
      List.take_of_length_le h, List.drop_eq_nil_of_le h]

namespace Deck

variable {r : Rules} {t : Table}

/-! ## Taking cards one by one -/

/-- The top card of the deck is taken first. -/
theorem exec_take_succ_of_cons {c : Card} {rest : List Card}
    (hdeck : t.game.zones.deck = c :: rest) (n : Nat) :
    exec (take r (n + 1)) t = exec ((c :: ·) <$> take r n) (t.takingUp 1) := by
  have htop : t.takingUp 1 = { t with game := { t.game with
      zones := { t.game.zones with deck := rest, hand := t.game.zones.hand ++ [c] } } } := by
    simp [Table.takingUp, hdeck]
  rw [htop, take, Play.exec_game_bind, hdeck, List.isEmpty_cons, if_neg Bool.false_ne_true]
  dsimp only
  rw [Play.exec_game_bind, hdeck]
  dsimp only
  rw [exec_bind, Play.exec_changeZones, map_eq_pure_bind]

/-- From an empty deck nothing is taken if there is nothing to refill it with. -/
theorem exec_take_of_bare (hdeck : t.game.zones.deck = []) (hdiscard : t.game.zones.discard = [])
    (n : Nat) : exec (take r n) t = (.ok [], t) := by
  cases n with
  | zero => rfl
  | succ n =>
    have hrefill : exec (refill r) t = (.ok (), t) := by
      rw [refill, Play.exec_game_bind, hdiscard]
      rfl
    rw [take, Play.exec_game_bind, hdeck, List.isEmpty_nil, if_pos rfl, exec_bind, hrefill]
    dsimp only
    rw [Play.exec_game_bind, hdeck]
    rfl

/-- Before a card is taken from an empty deck, the discard pile is shuffled to be the deck. -/
theorem exec_take_succ_of_nil (hshuffle : Service.shuffle ∉ r.outOfOrder)
    (hdeck : t.game.zones.deck = []) (hdiscard : t.game.zones.discard ≠ []) (n : Nat) :
    exec (take r (n + 1)) t = exec (take r (n + 1)) t.refilled := by
  have hrefill : exec (refill r) t = (.ok (), t.refilled) := by
    have hsome : t.game.zones.discard.isEmpty = false := by simpa using hdiscard
    rw [refill, Play.exec_game_bind, hsome, if_neg Bool.false_ne_true, exec_bind,
      Play.exec_changeZones]
    dsimp only
    rw [shuffle, Play.exec_serve, if_neg hshuffle, hdeck]
    rfl
  have hlength : t.refilled.game.zones.deck.length = t.game.zones.discard.length :=
    Random.Dice.length_shuffle _ _
  have hfull : t.refilled.game.zones.deck.isEmpty = false := by
    rw [← Bool.not_eq_true, List.isEmpty_iff, ← List.length_eq_zero_iff, hlength,
      List.length_eq_zero_iff]
    exact hdiscard
  -- With or without a refill, the rest of the round sees the same table.
  rw [take, Play.exec_game_bind, Play.exec_game_bind, hdeck, hfull, List.isEmpty_nil, if_pos rfl,
    if_neg Bool.false_ne_true, exec_bind, hrefill]

/-- Cards come off the top of the deck as long as it has some, and no others come if there is no
discard pile to refill it with. -/
theorem exec_take_of_le_or_bare {n : Nat}
    (h : n ≤ t.game.zones.deck.length ∨ t.game.zones.discard = []) :
    exec (take r n) t = (.ok (t.game.zones.deck.take n), t.takingUp n) := by
  -- The deck gets shorter with every card, so the induction is over all tables.
  induction n generalizing t with
  | zero =>
    rw [Table.takingUp_zero]
    rfl
  | succ n ih =>
    rcases hdeck : t.game.zones.deck with _ | ⟨c, rest⟩
    · have hbare : t.game.zones.discard = [] := h.resolve_left (by simp [hdeck])
      rw [exec_take_of_bare hdeck hbare, ← t.takingUp_min, hdeck]
      simp
    · have hrest := Table.deck_takingUp_one hdeck
      have hafter : n ≤ (t.takingUp 1).game.zones.deck.length ∨
          (t.takingUp 1).game.zones.discard = [] := by
        rw [hdeck, List.length_cons] at h
        rw [hrest]
        exact h.imp_left Nat.le_of_succ_le_succ
      rw [exec_take_succ_of_cons hdeck, exec_map, ih hafter, hrest, Table.takingUp_takingUp,
        Nat.add_comm 1 n]
      rfl

/-- Where more cards are wanted than the deck has, it is emptied and refilled, and the rest come
from the shuffled discard pile. -/
theorem exec_take_of_lt (hshuffle : Service.shuffle ∉ r.outOfOrder) {n : Nat}
    (hlt : t.game.zones.deck.length < n) (hdiscard : t.game.zones.discard ≠ []) :
    exec (take r n) t =
      exec ((t.game.zones.deck ++ ·) <$> take r (n - t.game.zones.deck.length))
        (t.takingUp t.game.zones.deck.length).refilled := by
  induction n generalizing t with
  | zero => exact absurd hlt (Nat.not_lt_zero _)
  | succ n ih =>
    rcases hdeck : t.game.zones.deck with _ | ⟨c, rest⟩
    -- This is the one refill; the discard pile was there all the time.
    · rw [exec_take_succ_of_nil hshuffle hdeck hdiscard]
      simp
    · have hrest := Table.deck_takingUp_one hdeck
      have hmore : (t.takingUp 1).game.zones.deck.length < n := by
        rw [hdeck, List.length_cons] at hlt
        rw [hrest]
        exact Nat.lt_of_succ_lt_succ hlt
      rw [exec_take_succ_of_cons hdeck, exec_map, ih hmore hdiscard, hrest,
        Table.takingUp_takingUp, exec_map, exec_map, List.length_cons, Nat.add_sub_add_right,
        Nat.add_comm 1]
      rcases (exec (take r (n - rest.length)) _).1 with e | cs <;> rfl

/-! ## A draw as a whole -/

/-- How many cards a draw brings into a hand that is not full: what is left of the request after the
damage in hand, if deck and discard pile have that many. -/
def yield (r : Rules) (z : Zones) (count : Int) : Nat :=
  min (count - damageInHand r z.hand).toNat (z.deck.length + z.discard.length)

theorem yield_le (z : Zones) (count : Int) :
    yield r z count ≤ z.deck.length + z.discard.length := Nat.min_le_right _ _

/-- Without a request nothing is drawn. -/
theorem yield_of_nonpos {count : Int} (h : count ≤ 0) (z : Zones) : yield r z count = 0 := by
  unfold yield
  omega

/-- A full hand draws nothing. -/
theorem exec_draw_of_full (hdraw : Service.draw ∉ r.outOfOrder)
    (hfull : r.config.maxHandSize ≤ t.game.zones.hand.length) (count : Int) :
    exec (draw r count) t = (.ok [], t) := by
  rw [draw, Play.exec_serve, if_neg hdraw, Play.exec_game_bind]
  dsimp only
  rw [if_pos hfull, exec_pure]

/-- A hand that is not full takes cards. -/
theorem exec_draw_of_room (hdraw : Service.draw ∉ r.outOfOrder)
    (hroom : t.game.zones.hand.length < r.config.maxHandSize) (count : Int) :
    exec (draw r count) t =
      exec (take r (count - damageInHand r t.game.zones.hand).toNat) t := by
  rw [draw, Play.exec_serve, if_neg hdraw, Play.exec_game_bind]
  dsimp only
  rw [if_neg (Int.not_le.mpr hroom)]

/-- What the deck can give comes off its top. -/
theorem exec_draw_of_yield_le (hdraw : Service.draw ∉ r.outOfOrder)
    (hroom : t.game.zones.hand.length < r.config.maxHandSize) {count : Int}
    (hle : yield r t.game.zones count ≤ t.game.zones.deck.length) :
    exec (draw r count) t =
      (.ok (t.game.zones.deck.take (yield r t.game.zones count)),
        t.takingUp (yield r t.game.zones count)) := by
  rw [exec_draw_of_room hdraw hroom]
  unfold yield at hle ⊢
  generalize (count - damageInHand r t.game.zones.hand).toNat = wanted at hle ⊢
  have hcases : wanted ≤ t.game.zones.deck.length ∨ t.game.zones.discard = [] := by
    rw [← List.length_eq_zero_iff]
    omega
  -- What is wanted may be more than what comes, but then the deck has just that many cards.
  have hmin : min wanted (t.game.zones.deck.length + t.game.zones.discard.length) =
      min wanted t.game.zones.deck.length := by omega
  rw [exec_take_of_le_or_bare hcases, hmin, Table.takingUp_min, ← List.take_eq_take_min]

/-- What the deck cannot give comes from the shuffled discard pile. -/
theorem exec_draw_of_lt_yield (hdraw : Service.draw ∉ r.outOfOrder)
    (hshuffle : Service.shuffle ∉ r.outOfOrder)
    (hroom : t.game.zones.hand.length < r.config.maxHandSize) {count : Int}
    (hlt : t.game.zones.deck.length < yield r t.game.zones count) :
    exec (draw r count) t =
      (.ok (t.game.zones.deck ++ (t.dice.shuffle t.game.zones.discard).1.take
          (yield r t.game.zones count - t.game.zones.deck.length)),
        (t.takingUp t.game.zones.deck.length).refilled.takingUp
          (yield r t.game.zones count - t.game.zones.deck.length)) := by
  rw [exec_draw_of_room hdraw hroom]
  unfold yield at hlt ⊢
  generalize (count - damageInHand r t.game.zones.hand).toNat = wanted at hlt ⊢
  have hdiscard : t.game.zones.discard ≠ [] := by
    rw [Ne, ← List.length_eq_zero_iff]
    omega
  have hdeck : (t.takingUp t.game.zones.deck.length).refilled.game.zones.deck =
      (t.dice.shuffle t.game.zones.discard).1 := rfl
  -- The shuffled pile is as long as it was, so it is all that can be taken after the deck.
  have hmin : min wanted (t.game.zones.deck.length + t.game.zones.discard.length) -
      t.game.zones.deck.length =
      min (wanted - t.game.zones.deck.length)
        (t.takingUp t.game.zones.deck.length).refilled.game.zones.deck.length := by
    rw [hdeck, Random.Dice.length_shuffle]
    omega
  rw [exec_take_of_lt hshuffle (by omega) hdiscard, exec_map,
    exec_take_of_le_or_bare (.inr rfl), hmin, Table.takingUp_min, ← hdeck, ← List.take_eq_take_min]
  rfl

/-- A draw into a hand that is not full brings as many cards as it may, and the hand gets them. -/
theorem exists_draw_of_room (hdraw : Service.draw ∉ r.outOfOrder)
    (hshuffle : Service.shuffle ∉ r.outOfOrder)
    (hroom : t.game.zones.hand.length < r.config.maxHandSize) (count : Int) :
    ∃ cards u, exec (draw r count) t = (.ok cards, u) ∧
      cards.length = yield r t.game.zones count ∧
      u.game.zones.hand = t.game.zones.hand ++ cards := by
  rcases Nat.lt_or_ge t.game.zones.deck.length (yield r t.game.zones count) with hlt | hle
  · refine ⟨_, _, exec_draw_of_lt_yield hdraw hshuffle hroom hlt, ?_, ?_⟩
    · have hmost := yield_le (r := r) t.game.zones count
      rw [List.length_append, List.length_take, Random.Dice.length_shuffle]
      omega
    · simp [Table.takingUp, Table.refilled]
  · refine ⟨_, _, exec_draw_of_yield_le hdraw hroom hle, ?_, rfl⟩
    rw [List.length_take]
    exact Nat.min_eq_left hle

/-- Nothing is drawn for no request. -/
theorem exec_draw_of_nonpos (hdraw : Service.draw ∉ r.outOfOrder) {count : Int} (h : count ≤ 0) :
    exec (draw r count) t = (.ok [], t) := by
  rcases le_or_gt r.config.maxHandSize t.game.zones.hand.length with hfull | hroom
  · exact exec_draw_of_full hdraw hfull count
  · have hyield : yield r t.game.zones count = 0 := yield_of_nonpos h _
    rw [exec_draw_of_yield_le hdraw hroom (by omega), hyield, Table.takingUp_zero, List.take_zero]

/-- A draw into a hand that is not full succeeds. It brings as many cards as its request, less the
damage in hand, if deck and discard pile have that many, and all they have otherwise. They are
appended to the hand in the order they come in, and no card on the table is lost or doubled. If the
deck has them all they are its first cards, and neither the discard pile nor the dice are touched.
Otherwise they are the whole deck and the first cards of the discard pile, shuffled once; the rest
of it is the new deck. The limit of the hand does not matter beyond that the hand is not full. -/
theorem exec_draw_exact (hdraw : Service.draw ∉ r.outOfOrder)
    (hshuffle : Service.shuffle ∉ r.outOfOrder)
    (hroom : t.game.zones.hand.length < r.config.maxHandSize) (count : Int) :
    let z := t.game.zones
    let n := min (max 0 (count - damageInHand r z.hand)).toNat (z.deck.length + z.discard.length)
    ∃ cards u, exec (draw r count) t = (.ok cards, u) ∧
      cards.length = n ∧
      u.game.zones.hand = z.hand ++ cards ∧
      u.game.zones.cards.Perm z.cards ∧
      (n ≤ z.deck.length →
        cards = z.deck.take n ∧
        u = { t with game := { t.game with
          zones := { z with deck := z.deck.drop n, hand := z.hand ++ cards } } }) ∧
      (z.deck.length < n →
        let shuffled := t.dice.shuffle z.discard
        let missing := n - z.deck.length
        cards = z.deck ++ shuffled.1.take missing ∧
        u = { t with
          game := { t.game with
            zones := { z with
              deck := shuffled.1.drop missing
              hand := z.hand ++ cards
              discard := [] } }
          dice := shuffled.2 }) := by
  intro z n
  have hn : n = yield r z count := by
    simp only [n, yield]
    omega
  rw [hn]
  obtain ⟨cards, u, hexec, hlength, hhand⟩ := exists_draw_of_room hdraw hshuffle hroom count
  have hperm : u.game.zones.cards.Perm z.cards := by
    simpa only [hexec] using (Table.Reorders.draw (r := r) count t).perm
  -- Either the deck is enough, or the discard pile is shuffled once and taken up.
  refine ⟨cards, u, hexec, hlength, hhand, hperm, fun hle => ?_, fun hlt => ?_⟩
  · rw [exec_draw_of_yield_le hdraw hroom hle] at hexec
    cases hexec
    exact ⟨rfl, rfl⟩
  · rw [exec_draw_of_lt_yield hdraw hshuffle hroom hlt] at hexec
    cases hexec
    refine ⟨rfl, ?_⟩
    simp [Table.takingUp, Table.refilled, z]

/-- A deck of one copper and a discard pile of one silver give all that is asked of them. -/
theorem exec_draw_exact_of_copper_and_silver :
    let r : Rules := {}
    let copper : Card := { serial := 1, instanceId := "copper#1", cardId := "copper" }
    let silver : Card := { serial := 2, instanceId := "silver#2", cardId := "silver" }
    let t : Table :=
      { game := { zones := { deck := [copper], discard := [silver] } },
        dice := { twister := { words := #[], used := 0 } } }
    Service.draw ∉ r.outOfOrder ∧ Service.shuffle ∉ r.outOfOrder ∧
      (t.game.zones.hand.length : Int) < r.config.maxHandSize ∧
      ∃ u, exec (draw r 2) t = (.ok [copper, silver], u) ∧
        u.game.zones.hand = [copper, silver] := by
  intro r copper silver t
  have hroom : (t.game.zones.hand.length : Int) < r.config.maxHandSize := by decide
  refine ⟨List.not_mem_nil, List.not_mem_nil, hroom, ?_⟩
  obtain ⟨cards, u, hexec, -, hhand, -, -, hrefill⟩ :=
    exec_draw_exact (r := r) (t := t) List.not_mem_nil List.not_mem_nil hroom 2
  obtain ⟨rfl, -⟩ := hrefill (by decide)
  exact ⟨u, hexec, hhand⟩

end Deck

namespace Assignment

variable {a : Assignment} {r : Rules} {t : Table}

/-- How many cards an effect that draws asks for. Drawing up to a number of cards asks for those
that the hand lacks. -/
def drawRequest (a : Assignment) (hand : Pile) : Int :=
  if a.effect.kind = .known .drawUntil then a.magnitude - hand.length else a.magnitude

/-- An effect that draws does what its request does, and counts the cards. -/
theorem exec_execute_of_draws (hdraw : Service.draw ∉ r.outOfOrder)
    (hkind : a.effect.kind = .known .drawCard ∨ a.effect.kind = .known .drawUntil)
    {cards : List Card} {u : Table}
    (hexec : exec (Deck.draw r (a.drawRequest t.game.zones.hand)) t = (.ok cards, u)) :
    ∃ value, exec (a.execute r) t = (.ok (a.done cards.length value), u) := by
  unfold drawRequest at hexec
  rcases hkind with hkind | hkind
  · rw [if_neg (by simp [hkind])] at hexec
    refine ⟨cards.length, ?_⟩
    rw [execute_of_known hkind, executeKind, drawCard, exec_bind, hexec]
    rfl
  · rw [if_pos hkind] at hexec
    refine ⟨a.magnitude, ?_⟩
    rw [execute_of_known hkind, executeKind, drawUntil, Play.exec_game_bind]
    dsimp only
    split
    -- Where the hand lacks nothing, the deck is not asked.
    · next hnone =>
      rw [Deck.exec_draw_of_nonpos hdraw hnone] at hexec
      cases hexec
      rfl
    · rw [exec_bind, hexec]
      rfl

/-- An effect that draws succeeds with every hand that is within the limit. The hand is within the
limit afterwards if it was full or has room for all that its request brings, and only then: a draw
is not stopped on the way. -/
theorem hand_le_iff_of_draws (hdraw : Service.draw ∉ r.outOfOrder)
    (hshuffle : Service.shuffle ∉ r.outOfOrder)
    (hkind : a.effect.kind = .known .drawCard ∨ a.effect.kind = .known .drawUntil)
    (hlimit : t.game.zones.hand.length ≤ r.config.maxHandSize) :
    let hand := t.game.zones.hand
    ∃ result u, exec (a.execute r) t = (.ok result, u) ∧
      ((u.game.zones.hand.length : Int) ≤ r.config.maxHandSize ↔
        (hand.length : Int) = r.config.maxHandSize ∨
          (hand.length : Int) + Deck.yield r t.game.zones (a.drawRequest hand) ≤
            r.config.maxHandSize) := by
  intro hand
  rcases eq_or_lt_of_le hlimit with hfull | hroom
  · have hnone := Deck.exec_draw_of_full hdraw hfull.ge (a.drawRequest hand)
    obtain ⟨value, hexec⟩ := exec_execute_of_draws hdraw hkind hnone
    exact ⟨_, _, hexec, fun _ => .inl hfull, fun _ => hlimit⟩
  · obtain ⟨cards, u, hcards, hlength, hhand⟩ :=
      Deck.exists_draw_of_room hdraw hshuffle hroom (a.drawRequest hand)
    obtain ⟨value, hexec⟩ := exec_execute_of_draws hdraw hkind hcards
    refine ⟨_, _, hexec, ?_⟩
    rw [hhand, List.length_append, hlength, Int.natCast_add]
    exact (or_iff_right hroom.ne).symm

/-- A hand with room for one card takes the one copper that there is. -/
theorem hand_le_iff_of_one_copper :
    let r : Rules := { config := { maxHandSize := 1 } }
    let copper : Card := { serial := 1, instanceId := "copper#1", cardId := "copper" }
    let t : Table :=
      { game := { zones := { deck := [copper] } },
        dice := { twister := { words := #[], used := 0 } } }
    let a : Assignment := { effect := { kind := .known .drawCard }, magnitude := 2 }
    Service.draw ∉ r.outOfOrder ∧ Service.shuffle ∉ r.outOfOrder ∧
      (a.effect.kind = .known .drawCard ∨ a.effect.kind = .known .drawUntil) ∧
      (t.game.zones.hand.length : Int) ≤ r.config.maxHandSize ∧
      ∃ result u, exec (a.execute r) t = (.ok result, u) ∧
        (u.game.zones.hand.length : Int) ≤ r.config.maxHandSize := by
  intro r copper t a
  have hlimit : (t.game.zones.hand.length : Int) ≤ r.config.maxHandSize := by decide
  refine ⟨List.not_mem_nil, List.not_mem_nil, .inl rfl, hlimit, ?_⟩
  obtain ⟨result, u, hexec, hiff⟩ := hand_le_iff_of_draws (a := a) (r := r) (t := t)
    List.not_mem_nil List.not_mem_nil (.inl rfl) hlimit
  exact ⟨result, u, hexec, hiff.mpr (.inr (by decide))⟩

/-- A hand with room for one card takes two coppers. -/
theorem not_hand_le_of_two_coppers :
    let r : Rules := { config := { maxHandSize := 1 } }
    let copper (n : Nat) (name : String) : Card :=
      { serial := n, instanceId := name, cardId := "copper" }
    let t : Table :=
      { game := { zones := { deck := [copper 1 "copper#1", copper 2 "copper#2"] } },
        dice := { twister := { words := #[], used := 0 } } }
    let a : Assignment := { effect := { kind := .known .drawCard }, magnitude := 2 }
    (t.game.zones.hand.length : Int) ≤ r.config.maxHandSize ∧
      ¬ ((exec (a.execute r) t).2.game.zones.hand.length : Int) ≤ r.config.maxHandSize := by
  intro r copper t a
  exact ⟨by decide, by decide +kernel⟩

end Assignment

end Treasury
