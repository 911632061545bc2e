import Treasury.Proofs.Activation.Rest
import Treasury.Proofs.Execution.Household
import Treasury.Starter.Cards

/-!
# Effects that fail on the way

An effect that fails is stopped where it stands, and what it did before stays done. With all
services in order most kinds of effects never fail, and of the others most fail before they change
the game. Two do not: treasures are laid away before the gold for them is worked out, and a unit has
its new level before its power is.

* `Play.Sure` holds of actions that never fail, and `Play.Harmless` of those that throw the dice at
  most before they fail.
* `Assignment.LeavesHalfDone` says when one of the two changes the game before it fails.
* `Assignment.execute_fails_unchanged_iff`: an effect that fails changes the game only then.
* `Engine.dispatch_failed_unchanged_iff` is the statement for the engine, which makes a failed
  effect of it.
-/

namespace Treasury

namespace Play

variable {α β : Type}

/-- The action never fails. -/
def Sure (x : Play α) : Prop := Throws (fun _ => False) x

/-- Where the action fails, it has thrown the dice at most. -/
def Harmless (x : Play α) : Prop := Reverts (fun _ => True) Table.Rolled x

namespace Sure

variable {x : Play α} {f : α → Play β}

theorem pure (a : α) : Sure (Pure.pure a) := Throws.pure a

theorem bind (hx : Sure x) (hf : ∀ a, Sure (f a)) : Sure (x >>= f) := Throws.bind hx hf

theorem ite {p : Prop} [Decidable p] {y : Play α} (hx : Sure x) (hy : Sure y) :
    Sure (if p then x else y) := Throws.ite hx hy

theorem discard (hx : Sure x) : Sure (Functor.discard x) := Throws.map hx _

theorem game : Sure Play.game := Throws.of_ok fun _ => ⟨_, rfl⟩

theorem changeGame (f : GameState → GameState) : Sure (Play.changeGame f) :=
  Throws.of_ok fun _ => ⟨_, rfl⟩

theorem changeZones (f : Zones → Zones) : Sure (Play.changeZones f) := changeGame _

theorem makeFromGame (f : GameState → α × GameState) : Sure (Play.makeFromGame f) :=
  Throws.of_ok fun _ => ⟨_, rfl⟩

theorem throwDice (f : Random.Dice → α × Random.Dice) : Sure (Play.throwDice f) :=
  Throws.of_ok fun _ => ⟨_, rfl⟩

theorem calculate {answer : Except Numeric.NumberError α} (h : ∃ a, answer = .ok a) :
    Sure (Play.calculate answer) := by
  obtain ⟨a, rfl⟩ := h
  exact pure a

end Sure

namespace Harmless

variable {x : Play α} {f : α → Play β}

theorem of_sure (h : Sure x) : Harmless x := Reverts.of_throws fun t e he => (h t e he).elim

/-- The first part may throw dice, and it may fail. -/
theorem bind (hx : Keeps Table.Rolled x) (hf : ∀ a, Harmless (f a)) : Harmless (x >>= f) :=
  Reverts.bind hx hf

/-- The first part may change the game where the second part never fails. -/
theorem bind_sure (hx : Harmless x) (hf : ∀ a, Sure (f a)) : Harmless (x >>= f) :=
  Reverts.bind_of_throws hx fun a t e he => (hf a t e he).elim

theorem ite {p : Prop} [Decidable p] {y : Play α} (hx : Harmless x) (hy : Harmless y) :
    Harmless (if p then x else y) := Reverts.ite hx hy

theorem serve {r : Rules} {service : Service} (hx : Harmless x) :
    Harmless (r.serve service x) := Reverts.ite (.of_keeps (.throw _)) hx

end Harmless

end Play

open Play (Sure Harmless)

variable {r : Rules}

/-! ## Services in order -/

section Services

variable (hr : r.outOfOrder = [])

include hr

theorem Play.Sure.serve {α : Type} {service : Service} {x : Play α} (hx : Sure x) :
    Sure (r.serve service x) := by
  unfold Rules.serve
  rw [if_neg (by rw [hr]; exact List.not_mem_nil)]
  exact hx

namespace Deck

theorem sure_shuffle : Sure (shuffle r) :=
  .serve hr (.bind .game fun _ => .bind (.throwDice _) fun _ => .changeZones _)

theorem sure_refill : Sure (refill r) :=
  .bind .game fun _ => .ite (.pure _) (.bind (.changeZones _) fun _ => sure_shuffle hr)

theorem sure_take (n : Nat) : Sure (take r n) := by
  induction n with
  | zero => exact .pure _
  | succ n ih =>
    unfold take
    refine .bind .game fun g => ?_
    extract_lets top
    -- Once the deck is refilled, a card is taken from its top and then the rest.
    have htop (u) : Sure (top u) := by
      refine .bind .game fun g => ?_
      split
      · exact .pure _
      · exact .bind (.changeZones _) fun _ => .bind ih fun _ => .pure _
    split
    · exact .bind (sure_refill hr) htop
    · exact htop ()

theorem sure_draw (count : Int) : Sure (draw r count) :=
  .serve hr (.bind .game fun _ => .ite (.pure _) (sure_take hr _))

theorem sure_destroy (c : Card) : Sure (destroy r c) := by
  refine .serve hr (.bind .game fun g => ?_)
  split
  · exact .bind (.changeZones _) fun _ => .pure _
  · exact .pure _

theorem sure_addToHand (cardId : String) (temporary : Bool) :
    Sure (addToHand r cardId temporary) :=
  .serve hr (.bind (.makeFromGame _) fun _ => .bind (.changeZones _) fun _ => .pure _)

theorem sure_addToDiscard (cardId : String) : Sure (addToDiscard r cardId) :=
  .serve hr (.bind (.makeFromGame _) fun _ => .bind (.changeZones _) fun _ => .pure _)

end Deck

namespace Roster

omit hr in
theorem sure_store (m : Member) (u : Resident) : Sure (store m u) := by
  cases m with
  | listed i => exact .changeGame _
  | outside v => exact .pure _

theorem sure_autoPlace (m : Member) : Sure (autoPlace r m) := by
  refine .serve hr (.bind .game fun g => ?_)
  dsimp only
  split
  · exact .bind (.changeGame _) fun _ => .bind (sure_store _ _) fun _ => .pure _
  · exact .pure _

theorem sure_removeUnit (m : Member) : Sure (removeUnit r m) := by
  refine .serve hr (.bind .game fun g => ?_)
  dsimp only
  split
  · exact .bind (.changeGame _) fun _ => .bind (sure_store _ _) fun _ => .pure _
  · exact .pure _

/-- The power of a young unit of the lowest level can be worked out. -/
theorem sure_createUnit (name : String) (job : Job) : Sure (createUnit r name job .young) := by
  have hpower : ∃ n, Resident.powerOf job .young 0 = .ok n := by
    cases job <;> exact ⟨_, rfl⟩
  exact .serve hr (.bind (.makeFromGame _) fun _ => .bind (.calculate hpower) fun _ =>
    .bind .game fun _ => .bind (.changeGame _) fun _ => .pure _)

theorem sure_killUnit (m : Member) : Sure (killUnit r m) := by
  refine .serve hr (.bind .game fun g => ?_)
  dsimp only
  split
  · exact .bind (.pure _) fun _ => .bind (.changeZones _) fun _ => .changeGame _
  · exact .bind (Throws.map (sure_removeUnit hr m) _) fun _ =>
      .bind (.changeZones _) fun _ => .changeGame _

theorem sure_requestFreePromotion (m : Member) : Sure (requestFreePromotion r m) :=
  .serve hr (.bind .game fun _ =>
    .ite (.bind (Throws.of_ok fun _ => ⟨_, rfl⟩) fun _ => .pure _) (.pure _))

end Roster

namespace Assignment

variable (a : Assignment)

/-! ## Effects that never fail -/

theorem sure_destroyAll (cs : List Card) : Sure (destroyAll r cs) := by
  induction cs with
  | nil => exact .pure _
  | cons c rest ih => exact .bind (Deck.sure_destroy hr c) fun _ => .bind ih fun _ => .pure _

theorem sure_addCopies (cardId : String) (n : Nat) : Sure (addCopies r cardId n) := by
  induction n with
  | zero => exact .pure _
  | succ n ih => exact .bind (.discard (Deck.sure_addToDiscard hr cardId)) fun _ => ih

theorem sure_drawUntil : Sure (a.drawUntil r) :=
  .bind .game fun _ => .ite (.pure _) (.bind (Deck.sure_draw hr _) fun _ => .pure _)

theorem sure_createTreasure : Sure (a.createTreasure r) := by
  unfold createTreasure
  split
  · exact .pure _
  · exact .bind (.discard (Deck.sure_addToHand hr _ _)) fun _ => .pure _

theorem sure_multiplyGold : Sure (a.multiplyGold r) := by
  unfold multiplyGold
  split
  · exact .pure _
  · exact .bind (.serve hr (.changeGame _)) fun _ => .pure _

theorem sure_revealAndGain : Sure (a.revealAndGain r) :=
  .bind (.serve hr (.makeFromGame _)) fun _ =>
    .ite (.pure _) (.bind (.makeFromGame _) fun _ => .pure _)

theorem sure_addCardToDeck : Sure (a.addCardToDeck r) :=
  .ite (.pure _) (.bind (sure_addCopies hr _ _) fun _ => .pure _)

omit hr in
theorem sure_upgradeCardInDeck : Sure a.upgradeCardInDeck := by
  refine .bind .game fun g => ?_
  split
  · exact .bind (.makeFromGame _) fun _ => .bind (.changeZones _) fun _ => .pure _
  · exact .pure _

omit hr in
theorem sure_schedule (kind : ScheduleKind) (defaultTurns : Int) :
    Sure (a.schedule kind defaultTurns) :=
  .bind (.makeFromGame _) fun _ => .bind (.changeGame _) fun _ => .pure _

theorem sure_gainUnit : Sure (a.gainUnit r) :=
  .bind .game fun _ => .bind (Roster.sure_createUnit hr _ _) fun _ =>
    .bind (.discard (Roster.sure_autoPlace hr _)) fun _ => .pure _

omit hr in
theorem sure_pickUnit (p : Resident → Bool) : Sure (pickUnit p) :=
  .bind .game fun _ => .throwDice _

theorem sure_removeUnit : Sure (a.removeUnit r) := by
  refine .bind (sure_pickUnit _) fun picked => ?_
  split
  · exact .pure _
  · exact .bind (Roster.sure_killUnit hr _) fun _ => .pure _

theorem sure_freePromotion : Sure (a.freePromotion r) := by
  refine .bind (sure_pickUnit _) fun picked => ?_
  split
  · exact .pure _
  · exact .bind (Roster.sure_requestFreePromotion hr _) fun _ => .pure _

/-! ## Effects that fail before they change the game -/

omit hr in
theorem harmless_addGoldOf (amount : Int) (modified : Bool) :
    Harmless (Economy.addGold r amount modified) := by
  have hgain : ∀ gain : Int, Harmless
      (do Play.changeGame fun g => { g with gold := g.gold + gain }; return gain) := fun _ =>
    .of_sure (.bind (.changeGame _) fun _ => .pure _)
  refine .serve ?_
  split
  · exact .bind (.of_fixed fun _ => rfl) fun g => .bind (.calculate _) hgain
  · exact hgain amount

theorem harmless_apply (amount : Int) : Harmless (Economy.apply r amount) :=
  .ite (Reverts.map (harmless_addGoldOf _ _) _) (.of_sure (.serve hr (.changeGame _)))

theorem harmless_gamble : Harmless (a.gamble r) := by
  have hamount : ∀ n : Amount, Keeps Table.Rolled (n.resolve r a.results) := by
    intro n
    cases n with
    | fixed n => exact .pure _
    | computed s => exact .resolve s r a.results []
  exact .bind (.throwDice _) fun _ => .bind (hamount _) fun _ => .bind (hamount _) fun _ =>
    .bind_sure (harmless_apply hr _) fun _ => .pure _

theorem harmless_spendGoldPercent : Harmless (a.spendGoldPercent r) := by
  refine .bind (.of_fixed fun _ => rfl) fun g => .bind (.calculate _) fun loss => .of_sure ?_
  dsimp only
  split
  · exact .bind (.serve hr (.changeGame _)) fun _ => .pure _
  · exact .pure _

/-- Apart from two kinds, an effect that fails has thrown the dice at most. -/
theorem harmless_execute (hsettle : a.effect.kind ≠ .known .settleCard)
    (hpromote : a.effect.kind ≠ .known .addPromotionLevel) : Harmless (a.execute r) := by
  rcases hkind : a.effect.kind with kind | word
  · have hexecute : a.execute r = a.executeKind r kind := execute_of_known hkind r
    rw [hexecute]
    cases kind
    case settleCard => exact absurd hkind hsettle
    case addPromotionLevel => exact absurd hkind hpromote
    case addGold => exact .bind_sure (harmless_apply hr _) fun _ => .pure _
    case gamble => exact harmless_gamble hr a
    case spendGoldPercent => exact harmless_spendGoldPercent hr a
    -- All others never fail.
    all_goals refine .of_sure ?_
    case drawCard => exact .bind (Deck.sure_draw hr _) fun _ => .pure _
    case addAction | goldBonus => exact .bind (.serve hr (.changeGame _)) fun _ => .pure _
    case createTempTreasure => exact sure_createTreasure hr a
    case boostTreasure | permanentUpgrade | removeCardFromDeck =>
      exact .bind (.makeFromGame _) fun _ => .pure _
    case goldMultiplier => exact sure_multiplyGold hr a
    case destroyCard => exact .bind (sure_destroyAll hr _) fun _ => .pure _
    case destroyPollution =>
      exact .bind .game fun _ => .bind (sure_destroyAll hr _) fun _ => .pure _
    case moveToDeckBottom => exact .bind (.serve hr (.makeFromGame _)) fun _ => .pure _
    case shuffleDeck => exact .bind (Deck.sure_shuffle hr) fun _ => .pure _
    case revealAndGain => exact sure_revealAndGain hr a
    case delayedGold | persistentGold | persistentMaintenance | maintenanceModifier =>
      exact sure_schedule a _ _
    case drawUntil => exact sure_drawUntil hr a
    case ignorePollution | promotionDiscount => exact .bind (.changeGame _) fun _ => .pure _
    case gainUnit => exact sure_gainUnit hr a
    case removeUnit => exact sure_removeUnit hr a
    case freePromotion => exact sure_freePromotion hr a
    case addCardToDeck => exact sure_addCardToDeck hr a
    case upgradeCardInDeck => exact sure_upgradeCardInDeck a
  · rw [execute_of_unknown hkind]
    exact .of_sure (.pure _)

end Assignment

end Services

/-! ## Effects that change the game before they fail -/

namespace Deck

/-- Treasures in hand are laid away; without any, the zones stay as they are. -/
theorem settled_hand (r : Rules) (boosts : Boosts) (cs : List Card) (z : Zones) :
    ((∃ c ∈ cs, isTreasure r c = true ∧ z.hand.holds c = true) →
        (settled r boosts cs z).2.hand.length < z.hand.length) ∧
      ((¬ ∃ c ∈ cs, isTreasure r c = true ∧ z.hand.holds c = true) →
        (settled r boosts cs z).2 = z) := by
  induction cs generalizing z with
  | nil => exact ⟨fun ⟨_, hc, _⟩ => (nomatch hc), fun _ => rfl⟩
  | cons c rest ih =>
    simp only [List.exists_mem_cons_iff]
    unfold settled
    by_cases hkind : isTreasure r c = true
    · rw [if_pos hkind]
      dsimp only
      unfold Zones.layAway
      by_cases hheld : z.hand.holds c = true
      · rw [if_pos hheld]
        refine ⟨fun _ => ?_, fun h => absurd (.inl ⟨hkind, hheld⟩) h⟩
        -- The first card goes, and the rest of the cards put none back.
        have hfirst := Pile.length_without hheld
        obtain ⟨hless, hsame⟩ :=
          ih { z with hand := z.hand.without c, discard := z.discard ++ [c] }
        rcases Classical.em (∃ d ∈ rest, isTreasure r d = true ∧
          (z.hand.without c).holds d = true) with h | h
        · have := hless h
          dsimp only at this
          omega
        · rw [hsame h]
          dsimp only
          omega
      -- A card that is not in hand or is no treasure is passed by.
      · rw [if_neg hheld]
        simpa only [hheld, Bool.false_eq_true, and_false, false_or] using ih z
    · rw [if_neg hkind]
      simpa only [hkind, Bool.false_eq_true, false_and, false_or] using ih z

/-- The zones change by settling if a treasure is in hand. -/
theorem settled_eq_self_iff (r : Rules) (boosts : Boosts) (cs : List Card) (z : Zones) :
    (settled r boosts cs z).2 = z ↔
      ¬ ∃ c ∈ cs, isTreasure r c = true ∧ z.hand.holds c = true := by
  obtain ⟨hless, hsame⟩ := settled_hand r boosts cs z
  refine ⟨fun h hheld => ?_, hsame⟩
  have := hless hheld
  rw [h] at this
  exact Nat.lt_irrefl _ this

end Deck

namespace Assignment

variable {a : Assignment} {t : Table}

/-- The effect changes the game before it may fail: a treasure in hand is laid away before the gold
for it is worked out, or a unit is given another level before its power is worked out. -/
def LeavesHalfDone (a : Assignment) (r : Rules) (t : Table) : Prop :=
  (a.effect.kind = .known .settleCard ∧
    ∃ c ∈ a.targets, Deck.isTreasure r c = true ∧ t.game.zones.hand.holds c = true) ∨
  (a.effect.kind = .known .addPromotionLevel ∧
    ∃ u i, (exec (pickUnit fun _ => true) t).1 = .ok (some (u, i)) ∧
      min r.config.maxPromotionLevel (u.level + a.magnitude) ≠ u.level)

/-- When settling fails, the treasures are laid away. -/
theorem game_of_settle_fails (hr : r.outOfOrder = []) (h : Fails (a.settle r) t) :
    (exec (a.settle r) t).2.game =
      { t.game with zones := (Deck.settled r t.game.boosts a.targets t.game.zones).2 } := by
  have hserved : Service.settle ∉ r.outOfOrder := by
    rw [hr]
    exact List.not_mem_nil
  unfold settle at h ⊢
  split at h
  · exact absurd h (not_fails_pure _ t)
  · next hsome =>
    rw [if_neg hsome]
    -- From there on only the gold can fail, which throws no dice and changes nothing.
    unfold Deck.settle Fails at h
    rw [Deck.settle, exec_bind, Play.exec_serve, if_neg hserved, Play.exec_makeFromGame]
    rw [exec_bind, Play.exec_serve, if_neg hserved, Play.exec_makeFromGame] at h
    dsimp only at h ⊢
    obtain ⟨e, he⟩ := h
    have hrest : ∀ total : Int, Harmless (do
        if total > 0 then discard (Economy.addGold r total true)
        return a.done a.targets.length total) := by
      intro total
      dsimp only
      split
      · exact .bind_sure (Reverts.map (harmless_addGoldOf _ _) _) fun _ => .pure _
      · exact .of_sure (.pure _)
    obtain ⟨dice, hdice⟩ := hrest _ _ e he trivial
    rw [hdice]

/-- When the power of a promoted unit cannot be worked out, its level is stored. -/
theorem game_of_setPromotionLevel_fails (hr : r.outOfOrder = []) {u : Resident} {i : Nat}
    {level : Int} (hu : t.game.residents[i]? = some u)
    (h : Fails (Roster.setPromotionLevel r (.listed i) level) t) :
    (exec (Roster.setPromotionLevel r (.listed i) level) t).2.game =
      { t.game with residents := t.game.residents.set i { u with level } } := by
  unfold Fails at h
  rw [Roster.exec_setPromotionLevel hu, if_neg (hr ▸ List.not_mem_nil)] at h ⊢
  unfold Resident.atLevel
  -- Only working out the power can fail, and without a power the unit keeps the one that it has.
  rcases hpower : Resident.powerOf u.job u.stage level with e | power <;> rw [hpower] at h
  · rfl
  · obtain ⟨e, he⟩ := h
    cases he

/-- When a promotion fails, the level is stored. -/
theorem game_of_addPromotionLevel_fails (hr : r.outOfOrder = [])
    (h : Fails (a.addPromotionLevel r) t) :
    ∃ u i, (exec (pickUnit fun _ => true) t).1 = .ok (some (u, i)) ∧
      (exec (a.addPromotionLevel r) t).2.game = { t.game with
        residents := t.game.residents.set i
          { u with level := min r.config.maxPromotionLevel (u.level + a.magnitude) } } := by
  have hpicked : ∃ picked dice,
      exec (pickUnit fun _ => true) t = (.ok picked, { t with dice }) := ⟨_, _, rfl⟩
  obtain ⟨picked, dice, hpicked⟩ := hpicked
  -- The unit is still where it was picked, since picking only throws the dice.
  have hplace := fun u i => Roster.getElem?_of_pickUnit (t := t) (u := u) (i := i)
    (p := fun _ => true)
  rw [hpicked] at hplace ⊢
  unfold addPromotionLevel Fails at h
  unfold addPromotionLevel
  rw [exec_bind, hpicked] at h ⊢
  rcases picked with _ | ⟨u, i⟩
  · obtain ⟨e, he⟩ := h
    cases he
  · refine ⟨u, i, rfl, ?_⟩
    dsimp only at h ⊢
    -- Answering after the promotion cannot fail.
    have hfails := (fails_bind_iff_left (fun _ => not_fails_pure _) _).mp h
    have hgame := game_of_setPromotionLevel_fails hr (t := { t with dice }) (hplace u i rfl) hfails
    obtain ⟨e, he⟩ := hfails
    rw [exec_bind]
    rcases hdone : exec (Roster.setPromotionLevel r (.listed i)
        (min r.config.maxPromotionLevel (u.level + a.magnitude))) { t with dice }
          with ⟨f | _, v⟩ <;> rw [hdone] at hgame he
    · exact hgame
    · cases he

/-- A unit of the list that is stored with a level is what it was if that was its level. -/
theorem residents_set_eq_self_iff {g : GameState} {u : Resident} {i : Nat}
    (hplace : g.residents[i]? = some u) (level : Int) :
    { g with residents := g.residents.set i { u with level } } = g ↔ level = u.level := by
  obtain ⟨hi, hget⟩ := List.getElem?_eq_some_iff.mp hplace
  constructor
  · intro hsame
    have hstored := congrArg (·.residents[i]?) hsame
    dsimp only at hstored
    rw [List.getElem?_set_self hi, hplace] at hstored
    exact congrArg Resident.level (Option.some_inj.mp hstored)
  · rintro rfl
    have hu : ({ u with level := u.level } : Resident) = g.residents[i] := hget.symm
    rw [hu, List.set_getElem_self]

/-- An effect that fails leaves the game as it was, unless it had changed it before it failed. -/
theorem execute_fails_unchanged_iff (hr : r.outOfOrder = []) (h : Fails (a.execute r) t) :
    (exec (a.execute r) t).2.game = t.game ↔ ¬ a.LeavesHalfDone r t := by
  by_cases hsettle : a.effect.kind = .known .settleCard
  · have hexecute : a.execute r = a.settle r := execute_of_known hsettle r
    have hleaves : a.LeavesHalfDone r t ↔
        ∃ c ∈ a.targets, Deck.isTreasure r c = true ∧ t.game.zones.hand.holds c = true := by
      simp [LeavesHalfDone, hsettle]
    rw [hexecute] at h ⊢
    rw [game_of_settle_fails hr h, hleaves, ← Deck.settled_eq_self_iff r t.game.boosts]
    exact ⟨congrArg GameState.zones, fun hzones => by rw [hzones]⟩
  · by_cases hpromote : a.effect.kind = .known .addPromotionLevel
    · have hexecute : a.execute r = a.addPromotionLevel r := execute_of_known hpromote r
      rw [hexecute] at h ⊢
      obtain ⟨u, i, hpicked, hgame⟩ := game_of_addPromotionLevel_fails hr h
      have hplace : t.game.residents[i]? = some u := Roster.getElem?_of_pickUnit hpicked
      have hleaves : a.LeavesHalfDone r t ↔
          min r.config.maxPromotionLevel (u.level + a.magnitude) ≠ u.level := by
        simp [LeavesHalfDone, hpromote, hpicked]
      rw [hgame, hleaves, Decidable.not_not]
      exact residents_set_eq_self_iff hplace _
    · -- Of the other kinds none does anything before it may fail.
      have hleaves : ¬ a.LeavesHalfDone r t := by
        rintro (⟨hkind, -⟩ | ⟨hkind, -⟩)
        · exact hsettle hkind
        · exact hpromote hkind
      refine iff_of_true ?_ hleaves
      obtain ⟨e, he⟩ := h
      obtain ⟨dice, hdice⟩ := harmless_execute hr a hsettle hpromote t e he trivial
      rw [hdice]

end Assignment

/-! ## What the engine makes of it -/

/-- If an effect fails while the engine carries it out, that counts as a failed effect, and the game
is as it was unless the effect had changed it before it failed. -/
theorem Engine.dispatch_failed_unchanged_iff (hr : r.outOfOrder = []) (tell : Tell) {m : Machine}
    {p : Pending} {targets : List Card} {magnitude : Int} {t : Table}
    (hmagnitude : exec (p.magnitude r targets m.results) m.table = (.ok magnitude, t))
    (hfails : Fails (Assignment.execute
      { effect := p.effect, magnitude, results := m.results, targets } r) t) :
    ∃ u, exec (dispatch tell r p targets) m =
        exec (tell (.executed p.effect.kind magnitude (.failed p.effect.kind)))
          { m with phase := .dispatching, table := u,
                   results := m.results.push (.failed p.effect.kind), current := none } ∧
      (u.game = m.table.game ↔ ¬ Assignment.LeavesHalfDone
        { effect := p.effect, magnitude, results := m.results, targets } r t) := by
  have hunchanged := Assignment.execute_fails_unchanged_iff hr hfails
  -- Working out the magnitude has thrown the dice at most.
  have hgame : t.game = m.table.game := by
    obtain ⟨dice, hdice⟩ := p.keeps_magnitude r targets m.results m.table
    rw [hmagnitude] at hdice
    rw [show t = _ from hdice]
  refine ⟨(exec (Assignment.execute
    { effect := p.effect, magnitude, results := m.results, targets } r) t).2, ?_, ?_⟩
  · obtain ⟨e, he⟩ := hfails
    rw [exec_dispatch, Pending.exec_carriedOut, hmagnitude]
    dsimp only
    rw [he]
    rfl
  · rwa [← hgame]

/-- Gold times an infinite multiplier cannot be worked out, and the game stays as it is. -/
theorem Engine.dispatch_failed_unchanged_of_gold :
    let m : Machine :=
      { table := { game := { goldMultiplier := .infinite false },
                   dice := { twister := { words := #[], used := 0 } } } }
    let p : Pending := { effect := .gold 5, speculative := 5, source := none }
    ∃ u, exec (dispatch (fun _ => pure ()) {} p []) m =
        (.ok (), { m with phase := .dispatching, table := u,
                          results := m.results.push (.failed (.known .addGold)) }) ∧
      u.game = m.table.game := by
  intro m p
  have hmagnitude : exec (p.magnitude {} [] m.results) m.table = (.ok 5, m.table) := rfl
  have hfails : Fails (Assignment.execute { effect := .gold 5, magnitude := 5 } {}) m.table :=
    ⟨.number .overflow, rfl⟩
  obtain ⟨u, hdone, hunchanged⟩ :=
    Engine.dispatch_failed_unchanged_iff rfl (fun _ => pure ()) hmagnitude hfails
  refine ⟨u, hdone, hunchanged.mpr ?_⟩
  rintro (⟨hkind, -⟩ | ⟨hkind, -⟩)
  · cases hkind
  · cases hkind

/-- Two multipliers are one too many for doubles, and the treasure that is settled then is laid away
for nothing. -/
theorem Engine.not_unchanged_of_two_multipliers :
    let r : Rules := { catalog := { cards := [Starter.treasure .copper] } }
    let copper : Card := { serial := 1, instanceId := "copper#1", cardId := "copper" }
    let m : Machine :=
      { table := { game := { zones := { hand := [copper] } },
                   dice := { twister := { words := #[], used := 0 } } } }
    let multiply : Effect :=
      { kind := .known .goldMultiplier,
        dynamic := some { kind := .known .fixed, multiplier := .ofDecimal false 1 300 } }
    let settle : Effect := .settle .allHandTreasure 0
    let before := (m.call r (.start [.always [multiply, multiply]] none)).2
    let after := before.call r (.start [.always [settle]] none)
    Fails (Assignment.execute { effect := settle, magnitude := 0, targets := [copper] } r)
        before.table ∧
      after.1.toOption.map (·.results) = some [.failed (.known .settleCard)] ∧
      ¬ after.2.table.game.zones = before.table.game.zones := by
  intro r copper m multiply settle before after
  refine ⟨⟨.number .overflow, ?_⟩, ?_, ?_⟩
  · decide +kernel
  · decide +kernel
  · decide +kernel

end Treasury
