import Treasury.Proofs.Execution.Purse
import Treasury.Proofs.Execution.Settling
import Treasury.Proofs.Numeric.Range
import Treasury.Starter.Cards

/-!
# What gains bring

Three kinds of effects gain gold: a gain, a gamble and a settlement. All of them reach the economy,
which modifies what they gain by the multiplier and the bonus of the turn, so that equal amounts
should bring equal gold. They do, but for a settlement worth nothing: a gain of nothing and a gamble
for nothing bring the bonus, and the settlement does not.

* `Assignment.Gains` says how much an effect gains before it is modified.
* `GameState.gain` is the gold that this brings under the modifiers of the turn.
* `Assignment.profit_of_gains`: all of them bring this much, except a settlement worth nothing.
* `Assignment.profits_eq_iff`: two effects that gain the same bring the same exactly if they are
  both settlements or neither is, or there is something to gain, or no bonus.
-/

namespace Treasury

open Numeric (Binary64)

/-- How much more gold there is after an action, also if it fails. -/
def Play.profit {α : Type} (x : Play α) (t : Table) : Int := (exec x t).2.game.gold - t.game.gold

/-- The gold that a gain brings under the modifiers of the turn: none if it cannot be worked out. -/
def GameState.gain (g : GameState) (amount : Int) : Int :=
  (Economy.modifiedGain g amount).toOption.getD 0

namespace Assignment

/-- Rolls for a win and works both amounts out. The answer is whether the gamble is won and which
amount is paid. -/
def wager (a : Assignment) (r : Rules) : Play (Bool × Int) := do
  let roll ← Play.throwDice (·.between 0 99)
  let won := roll < a.effect.successChance
  let successValue ← a.effect.successValue.resolve r a.results
  let failValue ← a.effect.failValue.resolve r a.results
  return (won, if won then successValue else failValue)

/-- How much an effect gains on a table before it is modified: the magnitude of a gain, the outcome
of a gamble, and what the treasures among the targets of a settlement are worth, if it has
targets. -/
inductive Gains (r : Rules) (t : Table) (a : Assignment) : Int → Prop
  | gain (hkind : a.effect.kind = .known .addGold) : Gains r t a a.magnitude
  | gamble (hkind : a.effect.kind = .known .gamble) {won : Bool} {outcome : Int}
      (hwager : (exec (a.wager r) t).1 = .ok (won, outcome)) : Gains r t a outcome
  | settlement (hkind : a.effect.kind = .known .settleCard) (htargets : a.targets ≠ []) :
      Gains r t a (r.worthOfAll t.game.boosts (a.treasures r))

end Assignment

/-! ## The modifiers of the turn -/

namespace Economy

variable {r : Rules} {t : Table}

/-- A gain of nothing brings the bonus. -/
theorem modifiedGain_zero {g : GameState} (h : g.goldMultiplier.isFinite = true) :
    modifiedGain g 0 = .ok (max 0 g.goldBonus) := by
  -- Nothing stays nothing when it is multiplied, and has a whole number below it.
  obtain ⟨negative, hzero⟩ := Binary64.exists_mul_eq_zero h
  have hfloor : (Binary64.mul (.zero false) g.goldMultiplier).floor = .ok 0 := by
    rw [hzero, Binary64.floor_zero]
  have hmodified : modifiedGain g 0 = .ok (if g.goldBonus > 0 then 0 + g.goldBonus else 0) := by
    unfold modifiedGain
    by_cases hone : g.goldMultiplier = .one
    · rw [if_pos hone]
      rfl
    · rw [if_neg hone]
      change (Binary64.mul (.zero false) g.goldMultiplier).floor >>= _ = _
      rw [hfloor]
      rfl
  rw [hmodified]
  split <;> congr <;> omega

variable (hr : r.outOfOrder = [])

include hr

/-- A gain is credited as it is modified. -/
theorem profit_addGold (amount : Int) :
    (discard (addGold r amount true)).profit t = t.game.gain amount := by
  unfold Play.profit addGold GameState.gain
  rw [exec_discard, Play.exec_serve, if_neg (hr ▸ List.not_mem_nil)]
  dsimp only
  rw [if_pos rfl, Play.exec_game_bind, exec_bind, Play.exec_calculate]
  rcases modifiedGain t.game amount with f | gain
  · exact Int.sub_self _
  · show t.game.gold + gain - t.game.gold = gain
    omega

/-- An amount that is not lost is credited as a gain is. -/
theorem profit_apply {amount : Int} (h : 0 ≤ amount) :
    (apply r amount).profit t = t.game.gain amount := by
  unfold apply
  rw [if_pos h]
  exact profit_addGold hr amount

end Economy

namespace Play

variable {α β : Type} {x : Play α} {f : α → Play β} {t u : Table}

/-- What is done first may do anything that leaves the gold. -/
theorem profit_bind {b : α} (hdone : exec x t = (.ok b, u)) (hgold : u.game.gold = t.game.gold) :
    (x >>= f).profit t = (f b).profit u := by
  unfold profit
  rw [exec_bind, hdone, hgold]

/-- What is done last may do anything that leaves the gold. -/
theorem profit_bind_left (hf : ∀ b u, (exec (f b) u).2.game.gold = u.game.gold) :
    (x >>= f).profit t = x.profit t := by
  unfold profit
  rw [exec_bind]
  rcases exec x t with ⟨e | b, u⟩
  · rfl
  · exact congrArg (· - t.game.gold) (hf b u)

end Play

/-! ## The three kinds of gains -/

namespace Assignment

variable {r : Rules} {a b : Assignment} {t : Table} {n : Int}

/-- A gamble is a wager and the payment of its outcome. -/
theorem gamble_eq (a : Assignment) (r : Rules) : a.gamble r = do
    let (won, outcome) ← a.wager r
    Economy.apply r outcome
    return { kind := a.effect.kind, success := won, count := a.targets.length,
             value := outcome } := by
  unfold gamble wager
  simp only [bind_assoc, pure_bind]

/-- A wager throws the dice at most. -/
theorem rolled_wager (a : Assignment) (r : Rules) : Keeps Table.Rolled (a.wager r) :=
  .bind (.throwDice _) fun _ => .bind (rolled_amount _ _) fun _ =>
    .bind (rolled_amount _ _) fun _ => .pure _

section Services

variable (hr : r.outOfOrder = [])

include hr

theorem profit_addGold (h : 0 ≤ a.magnitude) :
    (a.addGold r).profit t = t.game.gain a.magnitude :=
  (Play.profit_bind_left fun _ _ => rfl).trans (Economy.profit_apply hr h)

theorem profit_gamble {won : Bool} (h : 0 ≤ n) (hwager : (exec (a.wager r) t).1 = .ok (won, n)) :
    (a.gamble r).profit t = t.game.gain n := by
  obtain ⟨dice, hdice⟩ := a.rolled_wager r t
  rw [gamble_eq, Play.profit_bind (Prod.ext hwager hdice) rfl]
  exact (Play.profit_bind_left fun _ _ => rfl).trans (Economy.profit_apply hr h)

/-- A settlement brings what a gain does if it is worth something. -/
theorem profit_settle (htargets : a.targets ≠ [])
    (hn : r.worthOfAll t.game.boosts (a.treasures r) = n) :
    (a.settle r).profit t = if n > 0 then t.game.gain n else 0 := by
  have hsettle : exec (Deck.settle r a.targets) t = (.ok n, { t with game := { t.game with
      zones := (Deck.settled r t.game.boosts a.targets t.game.zones).2 } }) := by
    unfold Deck.settle
    rw [Play.exec_serve, if_neg (hr ▸ List.not_mem_nil), Play.exec_makeFromGame, ← hn, treasures,
      ← Deck.settled_worth r t.game.boosts a.targets t.game.zones]
  unfold settle
  rw [if_neg (List.isEmpty_iff.not.mpr htargets), Play.profit_bind hsettle rfl]
  dsimp only
  split
  · refine (Play.profit_bind_left fun _ _ => rfl).trans ?_
    -- The modifiers of the turn are what they were.
    exact Economy.profit_addGold hr n
  · exact Int.sub_self _

/-- An effect that gains something, or nothing without being a settlement, brings what the modifiers
of the turn make of it. -/
theorem profit_of_gains (hn : 0 ≤ n) (h : a.Gains r t n) :
    (a.execute r).profit t =
      if a.effect.kind = .known .settleCard ∧ n = 0 then 0 else t.game.gain n := by
  cases h with
  | gain hkind =>
    rw [execute_of_known hkind, if_neg (by simp [hkind])]
    exact profit_addGold hr hn
  | gamble hkind hwager =>
    rw [execute_of_known hkind, if_neg (by simp [hkind])]
    exact profit_gamble hr hn hwager
  | settlement hkind htargets =>
    rw [execute_of_known hkind]
    refine (profit_settle hr htargets rfl).trans ?_
    simp only [hkind, true_and]
    split <;> split <;> first | rfl | omega

/-- On one table two effects that gain the same bring the same, unless only one of them is a
settlement, what they gain is nothing, and there is a bonus. -/
theorem profits_eq_iff (hfinite : t.game.goldMultiplier.isFinite = true) (hn : 0 ≤ n)
    (ha : a.Gains r t n) (hb : b.Gains r t n) :
    (a.execute r).profit t = (b.execute r).profit t ↔
      (a.effect.kind = .known .settleCard ↔ b.effect.kind = .known .settleCard) ∨ 0 < n ∨
        t.game.goldBonus ≤ 0 := by
  rw [profit_of_gains hr hn ha, profit_of_gains hr hn hb]
  obtain hpos | rfl := hn.lt_or_eq
  · have hne : n ≠ 0 := hpos.ne'
    exact iff_of_true (by simp only [hne, and_false]) (.inr (.inl hpos))
  · have hgain : t.game.gain 0 = max 0 t.game.goldBonus := by
      rw [GameState.gain, Economy.modifiedGain_zero hfinite]
      rfl
    -- A settlement brings nothing and every other effect the bonus, if there is one.
    rw [hgain]
    by_cases hsettles : a.effect.kind = .known .settleCard <;>
      by_cases hsettles' : b.effect.kind = .known .settleCard <;>
        simp [hsettles, hsettles', eq_comm]

end Services

/-- A gain and the settlement of a copper bring the same. -/
theorem profits_eq_of_copper :
    let r : Rules := { catalog := { cards := [Starter.treasure .copper] } }
    let copper : Card := { serial := 1, instanceId := "copper#1", cardId := "copper" }
    let t : Table :=
      { game := { zones := { hand := [copper] }, goldBonus := 3 },
        dice := { twister := { words := #[], used := 0 } } }
    let gain : Assignment := { effect := .gold 1, magnitude := 1 }
    let settlement : Assignment :=
      { effect := .settle .allHandTreasure 0, magnitude := 0, targets := [copper] }
    gain.Gains r t 1 ∧ settlement.Gains r t 1 ∧
      (gain.execute r).profit t = (settlement.execute r).profit t := by
  intro r copper t gain settlement
  have hgain : gain.Gains r t 1 := .gain rfl
  have hsettlement : settlement.Gains r t 1 := .settlement rfl (by decide)
  exact ⟨hgain, hsettlement,
    (profits_eq_iff rfl (by decide) (by decide) hgain hsettlement).mpr (.inr (.inl (by decide)))⟩

/-- A gamble that is lost for nothing brings the bonus, and the settlement of a debt does not. -/
theorem profits_ne_of_debt :
    let r : Rules := { catalog := { cards := [Starter.pollution .debt] } }
    let debt : Card := { serial := 1, instanceId := "debt#1", cardId := "debt" }
    let t : Table :=
      { game := { zones := { hand := [debt] }, goldBonus := 3 },
        dice := { twister := { words := #[], used := 0 }, script := [99] } }
    let gamble : Assignment := { effect := .gamble 50 (.fixed 8) (.fixed 0), magnitude := 0 }
    let settlement : Assignment :=
      { effect := .settle .handCard 1, magnitude := 0, targets := [debt] }
    gamble.Gains r t 0 ∧ settlement.Gains r t 0 ∧
      (gamble.execute r).profit t = 3 ∧ (settlement.execute r).profit t = 0 := by
  intro r debt t gamble settlement
  have hwager : (exec (gamble.wager r) t).1 = .ok (false, 0) := by decide +kernel
  exact ⟨.gamble rfl hwager, .settlement rfl (by decide), by decide +kernel, by decide +kernel⟩

end Assignment

end Treasury
