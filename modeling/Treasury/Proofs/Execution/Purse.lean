import Mathlib.Algebra.Order.Ring.Int
import Treasury.Proofs.Execution.Belongings

/-!
# What effects do to gold

As long as nothing multiplies what is gained or adds to it, four kinds of effects change how much
gold there is, and their results say by how much: three bring in the value of their results, whether
they succeeded or not, and one takes the value of its result away if that is positive. All others
leave the gold as it is.

* `GameState.PaysPlainly`: nothing multiplies gains or adds to them.
* `EffectResult.earned`, `EffectResult.spent`: what a result says about the gold.
* `Assignment.execute_accounts`: the gold after an effect is what it was, plus what the result says
  was earned, minus what it says was spent.
-/

namespace Treasury

/-- Gains are paid as they are: nothing multiplies them or adds to them. -/
structure GameState.PaysPlainly (g : GameState) : Prop where
  /-- The multiplier is one. -/
  multiplier : g.goldMultiplier = .one
  /-- There is no bonus. -/
  bonus : g.goldBonus = 0

/-- Whether effects of a kind change how gains are paid. -/
def EffectKind.modifiesGains : EffectKind → Bool
  | .goldMultiplier | .goldBonus => true
  | _ => false

/-- The gold that a result says was earned: the value of a gain, of a gamble or of treasures that
were settled. What is lost in a gamble was earned negatively. -/
def EffectResult.earned (result : EffectResult) : Int :=
  match result.kind with
  | .known .addGold | .known .gamble | .known .settleCard => result.value
  | _ => 0

/-- The gold that a result says was spent: the value of a payment of a share, if positive. -/
def EffectResult.spent (result : EffectResult) : Int :=
  match result.kind with
  | .known .spendGoldPercent => max 0 result.value
  | _ => 0

/-- What a game pays with, and how gains are paid. -/
def GameState.purse (g : GameState) : Int × Numeric.Binary64 × Int :=
  (g.gold, g.goldMultiplier, g.goldBonus)

/-- Whether effects of a kind change how much gold there is. -/
def EffectKind.touchesGold : EffectKind → Bool
  | .addGold | .gamble | .settleCard | .spendGoldPercent => true
  | _ => false

theorem EffectResult.earned_eq_zero {result : EffectResult} {kind : EffectKind}
    (hkind : result.kind = .known kind) (h : kind.touchesGold = false) : result.earned = 0 := by
  cases kind <;> simp_all [earned, EffectKind.touchesGold]

theorem EffectResult.spent_eq_zero {result : EffectResult} {kind : EffectKind}
    (hkind : result.kind = .known kind) (h : kind.touchesGold = false) : result.spent = 0 := by
  cases kind <;> simp_all [spent, EffectKind.touchesGold]

/-- Effects that could not be carried out earn nothing. -/
@[simp]
theorem EffectResult.earned_failed (kind : Word EffectKind) :
    (EffectResult.failed kind).earned = 0 := by
  unfold earned
  split <;> rfl

/-- Effects that could not be carried out spend nothing. -/
@[simp]
theorem EffectResult.spent_failed (kind : Word EffectKind) :
    (EffectResult.failed kind).spent = 0 := by
  unfold spent
  split
  · exact max_self 0
  · rfl

/-! ## Services -/

namespace Economy

variable {r : Rules} {t : Table}

/-- A gain that is paid plainly is not modified. -/
theorem modifiedGain_of_paysPlainly {g : GameState} (h : g.PaysPlainly) (amount : Int) :
    modifiedGain g amount = .ok amount := by
  simp [modifiedGain, h.multiplier, h.bonus, pure, Except.pure, bind, Except.bind]

/-- The table after an amount of gold was added to it. -/
def credited (t : Table) (amount : Int) : Table :=
  { t with game := { t.game with gold := t.game.gold + amount } }

/-- A service adds an amount to the gold, or is out of order. -/
def Credits {α : Type} (t : Table) (x : Play α) (amount : Int) : Prop :=
  (∃ f, exec x t = (.error f, t)) ∨ ∃ b, exec x t = (.ok b, credited t amount)

theorem addGold_credits (h : t.game.PaysPlainly) (amount : Int) :
    Credits t (addGold r amount true) amount := by
  unfold Credits addGold
  rw [Play.exec_serve]
  split
  · exact .inl ⟨_, rfl⟩
  · refine .inr ⟨amount, ?_⟩
    dsimp only
    rw [if_pos rfl, Play.exec_game_bind, exec_bind, Play.exec_calculate,
      modifiedGain_of_paysPlainly h]
    rfl

theorem subtractGold_credits (t : Table) (amount : Int) :
    Credits t (subtractGold r amount) (-amount) := by
  unfold Credits subtractGold
  rw [Play.exec_serve]
  split
  · exact .inl ⟨_, rfl⟩
  · exact .inr ⟨(), rfl⟩

theorem Credits.discard {α : Type} {x : Play α} {amount : Int} (h : Credits t x amount) :
    Credits t (Functor.discard x) amount := by
  unfold Credits
  rw [exec_discard]
  obtain ⟨f, hdone⟩ | ⟨b, hdone⟩ := h <;> rw [hdone]
  · exact .inl ⟨f, rfl⟩
  · exact .inr ⟨(), rfl⟩

/-- An amount is added whatever its sign. -/
theorem apply_credits (h : t.game.PaysPlainly) (amount : Int) :
    Credits t (apply r amount) amount := by
  unfold apply
  split
  · exact (addGold_credits h amount).discard
  · rw [← Int.neg_neg amount, Int.neg_neg (-amount)]
    exact subtractGold_credits t (-amount)

end Economy

/-- No card is worth less than nothing. -/
theorem Rules.worthOf_nonneg (r : Rules) (boosts : Boosts) (c : Card) : 0 ≤ r.worthOf boosts c := by
  have hgrade (g : Grade) : 0 ≤ g.worth := by cases g <;> decide
  unfold worthOf
  split
  · exact hgrade _
  · split
    · unfold CardDefinition.worth
      split
      · exact hgrade _
      · exact le_rfl
    · exact le_rfl

namespace Deck

variable {r : Rules}

/-- Treasures that are laid away are worth something together, if not nothing. -/
theorem settled_nonneg (boosts : Boosts) (cs : List Card) (z : Zones) :
    0 ≤ (settled r boosts cs z).1 := by
  induction cs generalizing z with
  | nil => exact le_rfl
  | cons c rest ih =>
    unfold settled
    split
    · exact Int.add_nonneg (r.worthOf_nonneg boosts c) (ih _)
    · exact ih z

/-- What laying treasures away answers is not negative. -/
theorem settle_nonneg {cs : List Card} {t u : Table} {total : Int}
    (h : exec (settle r cs) t = (.ok total, u)) : 0 ≤ total := by
  unfold settle at h
  rw [Play.exec_serve] at h
  split at h
  · cases h
  · cases h
    exact settled_nonneg t.game.boosts cs t.game.zones

end Deck

/-! ## Every effect -/

namespace GameState

variable {g g' : GameState}

/-- Gains are paid the same way from the same purse. -/
theorem PaysPlainly.of_purse_eq (h : g.PaysPlainly) (hpurse : g'.purse = g.purse) :
    g'.PaysPlainly := by
  simp only [purse, Prod.mk.injEq] at hpurse
  exact ⟨hpurse.2.1.trans h.multiplier, hpurse.2.2.trans h.bonus⟩

theorem gold_of_purse_eq (hpurse : g'.purse = g.purse) : g'.gold = g.gold :=
  congrArg Prod.fst hpurse

end GameState

/-- Throwing the dice leaves the purse. -/
theorem Table.Rolled.purse_eq {t u : Table} (h : t.Rolled u) : u.game.purse = t.game.purse := by
  obtain ⟨dice, rfl⟩ := h
  rfl

/-- From a table on which gains are paid plainly, an action that carries an effect out leaves one on
which they are too, and the gold there is what it was, plus what the result says was earned, minus
what it says was spent. -/
def Assignment.Accounts (a : Assignment) (x : Play EffectResult) (t : Table) : Prop :=
  t.game.PaysPlainly → (exec x t).2.game.PaysPlainly ∧
    (exec x t).2.game.gold = t.game.gold +
      ((exec x t).1.toOption.getD a.failed).earned - ((exec x t).1.toOption.getD a.failed).spent

namespace Assignment

namespace Accounts

variable {a : Assignment} {r : Rules} {t : Table} {β : Type}

/-- What fails and leaves the purse has nothing to account for. -/
theorem of_error {x : Play EffectResult} {f : Fault} {u : Table} (hdone : exec x t = (.error f, u))
    (hpurse : u.game.purse = t.game.purse) : a.Accounts x t := by
  intro h
  have hgold := GameState.gold_of_purse_eq hpurse
  rw [hdone]
  refine ⟨h.of_purse_eq hpurse, ?_⟩
  show u.game.gold = t.game.gold + a.failed.earned - a.failed.spent
  simp [failed, hgold]

/-- What answers without a change of the purse answers nothing to account for. -/
theorem of_ok {x : Play EffectResult} {result : EffectResult} {u : Table}
    (hdone : exec x t = (.ok result, u)) (hpurse : u.game.purse = t.game.purse)
    (hresult : result.earned = result.spent) : a.Accounts x t := by
  intro h
  have hgold := GameState.gold_of_purse_eq hpurse
  rw [hdone]
  refine ⟨h.of_purse_eq hpurse, ?_⟩
  show u.game.gold = t.game.gold + result.earned - result.spent
  omega

/-- What is done first may do anything that leaves the purse. -/
theorem bind {x : Play β} {f : β → Play EffectResult}
    (hfirst : (exec x t).2.game.purse = t.game.purse)
    (hf : ∀ b u, exec x t = (.ok b, u) → u.game.PaysPlainly → a.Accounts (f b) u) :
    a.Accounts (x >>= f) t := by
  rcases hdone : exec x t with ⟨e | b, u⟩ <;> rw [hdone] at hfirst
  · exact of_error (f := e) (by rw [exec_bind, hdone]) hfirst
  · intro h
    have hplain : u.game.PaysPlainly := h.of_purse_eq hfirst
    have hgold : u.game.gold = t.game.gold := GameState.gold_of_purse_eq hfirst
    rw [exec_bind, hdone, ← hgold]
    exact hf b u hdone hplain hplain

/-- A roll comes before what is done with it. -/
theorem bind_rolled {x : Play β} {f : β → Play EffectResult} (hx : Keeps Table.Rolled x)
    (hf : ∀ b u, u.game.PaysPlainly → a.Accounts (f b) u) : a.Accounts (x >>= f) t :=
  bind (hx t).purse_eq fun b u _ => hf b u

/-- What adds an amount to the gold answers a result that says so. -/
theorem of_credits {x : Play β} {amount : Int} (hx : Economy.Credits t x amount)
    {result : EffectResult} (hresult : amount = result.earned - result.spent) :
    a.Accounts (do let _ ← x; return result) t := by
  obtain ⟨f, hdone⟩ | ⟨b, hdone⟩ := hx
  · exact of_error (f := f) (by rw [exec_bind, hdone]) rfl
  · intro h
    rw [exec_bind, hdone]
    refine ⟨⟨h.multiplier, h.bonus⟩, ?_⟩
    show t.game.gold + amount = t.game.gold + result.earned - result.spent
    omega

end Accounts

variable {a : Assignment} {r : Rules} {t : Table}

/-- Most effects have nothing to do with the purse, as their footprints say. -/
theorem purse_executeKind (a : Assignment) {kind : EffectKind} (hgold : kind.touchesGold = false)
    (hgains : kind.modifiesGains = false) (t : Table) :
    (exec (a.executeKind r kind) t).2.game.purse = t.game.purse := by
  have hdiffers := Table.DiffersIn.executeKind a r kind t
  have hsame := hdiffers.same (p := .gold) (by cases kind <;> first | decide | cases hgold)
  have hmultiplier := hdiffers.same (p := .multiplier)
    (by cases kind <;> first | decide | cases hgains)
  have hbonus := hdiffers.same (p := .bonus) (by cases kind <;> first | decide | cases hgains)
  simp only [Part.Same] at hsame hmultiplier hbonus
  rw [GameState.purse, hsame, hmultiplier, hbonus]
  rfl

/-- Kinds of effects that leave the purse have nothing to account for. -/
theorem accounts_of_purse_eq {kind : EffectKind} (hkind : a.effect.kind = .known kind)
    (hgold : kind.touchesGold = false) (hgains : kind.modifiesGains = false) :
    a.Accounts (a.executeKind r kind) t := by
  have hpurse := purse_executeKind (r := r) a hgold hgains t
  have hanswer := kind_of_execute a r t
  rw [execute_of_known hkind] at hanswer
  rcases hdone : exec (a.executeKind r kind) t with ⟨f | result, u⟩ <;> rw [hdone] at hpurse hanswer
  · exact .of_error hdone hpurse
  · have hresult : result.kind = .known kind := (hanswer result rfl).trans hkind
    refine .of_ok hdone hpurse ?_
    rw [EffectResult.earned_eq_zero hresult hgold, EffectResult.spent_eq_zero hresult hgold]

theorem addGold_accounts (hkind : a.effect.kind = .known .addGold) :
    a.Accounts (a.addGold r) t := by
  intro h
  refine Accounts.of_credits (Economy.apply_credits h a.magnitude) ?_ h
  simp [EffectResult.earned, EffectResult.spent, doneInFull, done, hkind]

theorem rolled_amount (b : Amount) (results : ResultStack) :
    Keeps Table.Rolled (b.resolve r results) := by
  cases b with
  | fixed n => exact .pure _
  | computed s => exact Table.Rolled.resolve s r results []

theorem gamble_accounts (hkind : a.effect.kind = .known .gamble) : a.Accounts (a.gamble r) t := by
  -- The dice are thrown for the win and for both amounts before anything is paid.
  refine .bind_rolled (Table.Rolled.throwDice _) fun roll _ _ => ?_
  refine .bind_rolled (rolled_amount _ _) fun successValue _ _ => ?_
  refine .bind_rolled (rolled_amount _ _) fun failValue _ hplain => ?_
  refine .of_credits (Economy.apply_credits hplain _) ?_
  simp [EffectResult.earned, EffectResult.spent, hkind]

theorem settle_accounts (hkind : a.effect.kind = .known .settleCard) :
    a.Accounts (a.settle r) t := by
  have hearned (count : Int) (total : Int) : (a.done count total).earned = total := by
    simp [EffectResult.earned, done, hkind]
  have hspent (count : Int) (total : Int) : (a.done count total).spent = 0 := by
    simp [EffectResult.spent, done, hkind]
  unfold settle
  split
  · refine .of_ok rfl rfl ?_
    rw [hearned, hspent]
  · -- Laying cards away leaves the gold and the rates of it alone, so only what is paid counts.
    have hcards := Table.DiffersIn.layAway (r := r) (List.mem_singleton_self Part.piles) a.targets t
    have hturn := Table.SameTurn.of_differsIn (hcards.mono (by decide))
    refine .bind (hturn.view_eq fun _ => rfl) fun total u hdone hplain => ?_
    have hnonneg := Deck.settle_nonneg hdone
    dsimp only
    split
    · refine .of_credits (Economy.addGold_credits hplain total).discard ?_
      rw [hearned, hspent]
      omega
    · refine .of_ok rfl rfl ?_
      rw [hearned, hspent]
      omega

theorem spendGoldPercent_accounts (hkind : a.effect.kind = .known .spendGoldPercent) :
    a.Accounts (a.spendGoldPercent r) t := by
  refine .bind rfl fun g _ _ _ => .bind_rolled (Table.Rolled.calculate _) fun loss u _ => ?_
  have hearned : (a.done a.targets.length loss).earned = 0 := by
    simp [EffectResult.earned, done, hkind]
  have hspent : (a.done a.targets.length loss).spent = max 0 loss := by
    simp [EffectResult.spent, done, hkind]
  dsimp only
  split
  · refine .of_credits (Economy.subtractGold_credits u loss) ?_
    rw [hearned, hspent]
    omega
  · refine .of_ok rfl rfl ?_
    rw [hearned, hspent]
    omega

/-- As long as gains are paid plainly and the effect does not change that, the gold after it is what
it was, plus what its result says was earned, minus what it says was spent. -/
theorem execute_accounts (a : Assignment) (r : Rules) (t : Table)
    (hmodifies : ∀ kind, a.effect.kind = .known kind → kind.modifiesGains = false) :
    a.Accounts (a.execute r) t := by
  rcases hkind : a.effect.kind with kind | word
  · rw [execute_of_known hkind]
    cases kind
    case goldMultiplier | goldBonus => cases hmodifies _ hkind
    case addGold => exact addGold_accounts hkind
    case gamble => exact gamble_accounts hkind
    case settleCard => exact settle_accounts hkind
    case spendGoldPercent => exact spendGoldPercent_accounts hkind
    all_goals exact accounts_of_purse_eq hkind rfl rfl
  · rw [execute_of_unknown hkind]
    refine .of_ok rfl rfl ?_
    simp [failed]

end Assignment

end Treasury
