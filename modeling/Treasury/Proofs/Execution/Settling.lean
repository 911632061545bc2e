import Treasury.Proofs.Activation.Targets
import Treasury.Proofs.Execution.Inflow
import Treasury.Starter.Cards

/-!
# Settling

Settling treasures answers with a count and a worth, and it lays cards away. The count is that of
the targets and the worth that of the treasures among them, whether or not they were in hand, so the
answer says what was laid away if every target is a treasure in hand, and not otherwise.

* `Table.laidAway`: the cards that went from the hand to the discard pile.
* `Pile.AllSettle`: all the given cards are treasures of the pile, each given once.
* `EffectResult.Reports`: a result counts the given cards and is worth as much as they are, and the
  next effect that reads a count reads theirs.
* `Assignment.settle_reports_iff`: what settling answers is what was laid away exactly if all
  targets settle.
-/

namespace Treasury

/-- The cards that went from the hand to the discard pile between two tables whose cards have
different ids: those that lie there now and were in hand before. -/
def Table.laidAway (t u : Table) : List Card :=
  u.game.zones.discard.filter (t.game.zones.hand.holds ·)

/-- All the given cards are treasures that the pile holds, and none is given twice. -/
def Pile.AllSettle (r : Rules) (p : Pile) (cs : List Card) : Prop :=
  (∀ c ∈ cs, Deck.isTreasure r c = true ∧ p.holds c = true) ∧ (cs.map (·.instanceId)).Nodup

/-- A result is that of the given cards: it counts them and is worth as much as they are, and
whatever effect comes next with the previous count as its magnitude gets their number. -/
structure EffectResult.Reports (result : EffectResult) (r : Rules) (boosts : Boosts)
    (cs : List Card) : Prop where
  /-- The count is that of the cards. -/
  count : result.count = cs.length
  /-- The value is that of the cards. -/
  value : result.value = r.worthOfAll boosts cs
  /-- The next effect reads the number of the cards. -/
  next : ∀ (s : ValueSource) (results : ResultStack) (targets : List Card) (t : Table),
    s.kind = .known .previousCount →
      exec (s.baseResult r (results.push result) targets) t = (.ok (cs.length : Int), t)

/-- What the next effect reads is the count. -/
theorem EffectResult.reports_iff {result : EffectResult} {r : Rules} {boosts : Boosts}
    {cs : List Card} :
    result.Reports r boosts cs ↔
      result.count = cs.length ∧ result.value = r.worthOfAll boosts cs := by
  refine ⟨fun h => ⟨h.count, h.value⟩, fun ⟨hcount, hvalue⟩ => ⟨hcount, hvalue, ?_⟩⟩
  intro s results targets t hs
  rw [ValueSource.baseResult, Play.exec_game_bind, hs]
  dsimp only
  rw [exec_pure, ResultStack.lastCount, ResultStack.top?_push, Option.map_some, Option.getD_some,
    hcount]

/-! ## Cards that are put down -/

namespace Pile

variable {p : Pile} {c : Card} {cs : List Card}

/-- A pile holds a card if the id of the card is there. -/
theorem holds_iff_mem_ids : p.holds c = true ↔ c.instanceId ∈ p.ids := by
  rw [holds, List.any_eq_true, mem_ids]
  exact exists_congr fun d => and_congr_right fun _ => decide_eq_true_iff

/-- Where ids are unique, a pile that a card is taken away from holds the others still. -/
theorem holds_without_iff (hp : p.ids.Nodup) (h : p.holds c = true) {d : Card} :
    (p.without c).holds d = true ↔ p.holds d = true ∧ d.instanceId ≠ c.instanceId := by
  rw [ids_of_holds h, Multiset.nodup_cons] at hp
  rw [holds_iff_mem_ids, holds_iff_mem_ids, ids_of_holds h, Multiset.mem_cons]
  constructor
  · intro hd
    exact ⟨.inr hd, fun heq => hp.1 (heq ▸ hd)⟩
  · rintro ⟨hd, hne⟩
    exact hd.resolve_left hne

theorem taken_cons_of_none (h : p.counterpart? c = none) (cs : List Card) :
    p.taken (c :: cs) = p.taken cs := by
  rw [taken, h]

theorem taken_cons_of_some {d : Card} (h : p.counterpart? c = some d) (cs : List Card) :
    p.taken (c :: cs) = (c, d) :: (p.without c).taken cs := by
  rw [taken, h]

/-- Cards that are put down are some of those that were to be. -/
theorem map_fst_taken_sublist (p : Pile) (cs : List Card) :
    ((p.taken cs).map (·.1)).Sublist cs := by
  induction cs generalizing p with
  | nil => exact List.Sublist.refl _
  | cons c rest ih =>
    unfold taken
    split
    · exact (ih _).cons_cons c
    · exact (ih p).cons c

/-- Where ids are unique, all of some cards are put down if the pile holds them and none is named
twice. -/
theorem map_fst_taken_eq_iff (hp : p.ids.Nodup) :
    (p.taken cs).map (·.1) = cs ↔
      (∀ c ∈ cs, p.holds c = true) ∧ (cs.map (·.instanceId)).Nodup := by
  induction cs generalizing p with
  | nil => simp [taken]
  | cons c rest ih =>
    have hholds := holds_eq_isSome p c
    cases hcounter : p.counterpart? c with
    | none =>
      rw [hcounter, Option.isSome_none] at hholds
      rw [taken_cons_of_none hcounter]
      refine iff_of_false (fun heq => ?_) fun hall => ?_
      -- One card is passed over, so there are too few.
      · have hle := (map_fst_taken_sublist p rest).length_le
        rw [heq, List.length_cons] at hle
        exact Nat.not_succ_le_self _ hle
      · have hheld := hall.1 c List.mem_cons_self
        rw [hholds] at hheld
        cases hheld
    | some d =>
      rw [hcounter, Option.isSome_some] at hholds
      have hwithout : (p.without c).ids.Nodup :=
        Multiset.nodup_of_le (ids_le_of_sublist (without_sublist p c)) hp
      -- The rest is put down from a pile that does not hold the card any more.
      have hrest : (∀ x ∈ rest, (p.without c).holds x = true) ↔
          (∀ x ∈ rest, p.holds x = true) ∧ c.instanceId ∉ rest.map (·.instanceId) := by
        rw [forall₂_congr fun x _ => holds_without_iff hp hholds, forall₂_and, List.mem_map]
        exact and_congr_right fun _ => by simp only [not_exists, not_and, ne_eq]
      rw [taken_cons_of_some hcounter, List.map_cons, List.cons.injEq, eq_self, true_and,
        ih hwithout, hrest, List.forall_mem_cons, List.map_cons, List.nodup_cons, hholds, eq_self,
        true_and, and_assoc]

end Pile

/-- Cards that are put down onto the discard pile lie there behind those of before. -/
theorem Zones.discard_foldl_put (cs : List Card) (z : Zones) :
    (cs.foldl (put .discard) z).discard = z.discard ++ (z.hand.taken cs).map (·.1) := by
  induction cs generalizing z with
  | nil => simp [Pile.taken]
  | cons c rest ih =>
    rw [List.foldl_cons, ih, put, Pile.holds_eq_isSome]
    cases hcounter : z.hand.counterpart? c with
    | none => rw [Pile.taken_cons_of_none hcounter, Option.isSome_none, if_neg Bool.false_ne_true]
    | some d =>
      rw [Pile.taken_cons_of_some hcounter, Option.isSome_some, if_pos rfl]
      exact List.append_assoc z.discard [c] _

/-! ## What settling answers -/

/-- Settling is worth as much as the treasures among the given cards are. -/
theorem Deck.settled_worth (r : Rules) (boosts : Boosts) (cs : List Card) (z : Zones) :
    (settled r boosts cs z).1 = r.worthOfAll boosts (cs.filter (isTreasure r)) := by
  induction cs generalizing z with
  | nil => rfl
  | cons c rest ih =>
    unfold settled
    by_cases h : isTreasure r c = true
    · rw [if_pos h, List.filter_cons_of_pos h]
      exact congrArg (r.worthOf boosts c + ·) (ih _)
    · rw [if_neg h, List.filter_cons_of_neg h]
      exact ih z

/-- Where ids are unique, no card of the discard pile counts as one in hand. -/
theorem Zones.not_holds_of_mem_discard {z : Zones} (hids : z.ids.Nodup) {c : Card}
    (hc : c ∈ z.discard) : ¬ z.hand.holds c = true := by
  rw [ids_eq, Multiset.nodup_add, Multiset.nodup_add] at hids
  obtain ⟨⟨-, -, hdisjoint⟩, -, -⟩ := hids
  intro hholds
  exact Multiset.disjoint_left.mp hdisjoint
    (Multiset.mem_add.mpr (.inr (Pile.holds_iff_mem_ids.mp hholds))) (Pile.mem_ids.mpr ⟨c, hc, rfl⟩)

namespace Assignment

/-- The treasures among the targets. -/
def treasures (a : Assignment) (r : Rules) : List Card := a.targets.filter (Deck.isTreasure r)

variable {a : Assignment} {r : Rules} {t u : Table} {result : EffectResult}

/-- Whatever comes of the gold, settling answers with the number of targets and a total. -/
theorem answers_gainOfSettled (a : Assignment) (r : Rules) (total : Int) :
    Answers (· = a.done a.targets.length total) (do
      if total > 0 then discard (Economy.addGold r total true)
      return a.done a.targets.length total) :=
  .ite (.bind fun _ => .pure rfl) (.pure rfl)

/-- Where settling answers, it counts the targets, is worth the treasures among them, and leaves the
piles as they are after these are laid away. -/
theorem of_exec_settle (h : exec (a.settle r) t = (.ok result, u)) :
    result.count = a.targets.length ∧
      result.value = r.worthOfAll t.game.boosts (a.treasures r) ∧
      u.game.zones = (a.treasures r).foldl (Zones.put .discard) t.game.zones := by
  have hzones := zones_settle a r t
  rw [h] at hzones
  unfold settle at h
  split at h
  · next hnone =>
    cases h
    rw [treasures, List.isEmpty_iff.mp hnone]
    exact ⟨rfl, rfl, rfl⟩
  · rw [exec_bind, Deck.settle, Play.exec_serve] at h
    split_ifs at h with hout
    · cases h
    rw [if_neg hout] at hzones
    rw [Play.exec_makeFromGame] at h
    -- The answer does not depend on what becomes of the gold.
    obtain rfl := answers_gainOfSettled a r _ _ _ (congrArg Prod.fst h)
    exact ⟨rfl, Deck.settled_worth r t.game.boosts a.targets t.game.zones, hzones⟩

/-- Where ids are unique, settling lays away the treasures among the targets that the hand holds,
each of them once. -/
theorem laidAway_of_exec_settle (hids : t.game.zones.ids.Nodup)
    (h : exec (a.settle r) t = (.ok result, u)) :
    t.laidAway u = (t.game.zones.hand.taken (a.treasures r)).map (·.1) := by
  obtain ⟨-, -, hzones⟩ := of_exec_settle h
  have hput : ∀ c ∈ (t.game.zones.hand.taken (a.treasures r)).map (·.1),
      t.game.zones.hand.holds c = true := by
    intro c hc
    obtain ⟨⟨c, d⟩, hx, rfl⟩ := List.mem_map.mp hc
    obtain ⟨-, hd, hsame⟩ := Pile.of_mem_taken hx
    exact List.any_eq_true.mpr ⟨d, hd, hsame⟩
  rw [Table.laidAway, hzones, Zones.discard_foldl_put, List.filter_append,
    List.filter_eq_nil_iff.mpr fun _ => Zones.not_holds_of_mem_discard hids,
    List.filter_eq_self.mpr hput,
    List.nil_append]

/-- Where ids are unique and settling succeeds, its answer is that of the cards that it lays away
exactly if all targets are treasures in hand and none is there twice. A target that stays where it
is is counted all the same, and is paid for if it is a treasure. -/
theorem settle_reports_iff (hids : t.game.zones.ids.Nodup)
    (hkind : a.effect.kind = .known .settleCard) (h : exec (a.execute r) t = (.ok result, u)) :
    result.Reports r t.game.boosts (t.laidAway u) ↔ t.game.zones.hand.AllSettle r a.targets := by
  rw [execute_of_known hkind] at h
  change exec (a.settle r) t = _ at h
  obtain ⟨hcount, hvalue, -⟩ := of_exec_settle h
  have hhand : t.game.zones.hand.ids.Nodup := Multiset.coe_nodup.mpr (Zones.nodup_hand_ids hids)
  have htreasures : (a.treasures r).Sublist a.targets := List.filter_sublist
  have hput := t.game.zones.hand.map_fst_taken_sublist (a.treasures r)
  rw [EffectResult.reports_iff, laidAway_of_exec_settle hids h, hcount, hvalue, Int.natCast_inj]
  constructor
  · rintro ⟨hlength, -⟩
    -- As many cards are laid away as there are targets, so they are the targets.
    have hall := (hput.trans htreasures).eq_of_length hlength.symm
    have hself : a.treasures r = a.targets :=
      htreasures.eq_of_length (le_antisymm htreasures.length_le (hlength.le.trans hput.length_le))
    rw [hself, Pile.map_fst_taken_eq_iff hhand] at hall
    exact ⟨fun c hc => ⟨List.filter_eq_self.mp hself c hc, hall.1 c hc⟩, hall.2⟩
  · rintro ⟨hsettle, hnodup⟩
    have hself : a.treasures r = a.targets := List.filter_eq_self.mpr fun c hc => (hsettle c hc).1
    have hall : (t.game.zones.hand.taken a.targets).map (·.1) = a.targets :=
      (Pile.map_fst_taken_eq_iff hhand).mpr
        ⟨fun c hc => (hsettle c hc).2, hnodup⟩
    rw [hself, hall]
    exact ⟨rfl, rfl⟩

/-- A copper in hand is settled for what it is worth, and the next effect gets the count of one. -/
theorem settle_reports_of_copper_in_hand :
    let r : Rules := { catalog := { cards := [Starter.treasure .copper] } }
    let copper : Card := { serial := 1, instanceId := "copper#1", cardId := "copper" }
    let t : Table :=
      { game := { zones := { hand := [copper] } },
        dice := { twister := { words := #[], used := 0 } } }
    let a : Assignment :=
      { effect := { kind := .known .settleCard }, magnitude := 0, targets := [copper] }
    ∃ result u, t.game.zones.ids.Nodup ∧ a.effect.kind = .known .settleCard ∧
      exec (a.execute r) t = (.ok result, u) ∧ result.Reports r t.game.boosts (t.laidAway u) := by
  intro r copper t a
  have hids : t.game.zones.ids.Nodup := by decide
  have hexec : exec (a.execute r) t =
      (.ok { kind := .known .settleCard, success := true, count := 1, value := 1 },
        (exec (a.execute r) t).2) :=
    Prod.ext (by decide +kernel) rfl
  refine ⟨_, _, hids, rfl, hexec, (settle_reports_iff hids rfl hexec).mpr ?_⟩
  unfold Pile.AllSettle
  decide

/-- The copper on top of the deck is counted and paid for, and stays where it is. -/
theorem not_reports_of_copper_on_deck :
    let r : Rules := { catalog := { cards := [Starter.treasure .copper] } }
    let copper : Card := { serial := 1, instanceId := "copper#1", cardId := "copper" }
    let t : Table :=
      { game := { zones := { deck := [copper] } },
        dice := { twister := { words := #[], used := 0 } } }
    let settle : Effect := { kind := .known .settleCard, target := .deckTop }
    let a : Assignment := { effect := settle, magnitude := 0, targets := [copper] }
    let result : EffectResult :=
      { kind := .known .settleCard, success := true, count := 1, value := 1 }
    ∃ u, t.game.zones.ids.Nodup ∧ (exec (settle.autoTargets r none) t).1 = .ok a.targets ∧
      exec (a.execute r) t = (.ok result, u) ∧ u.game.zones = t.game.zones ∧
      ¬ result.Reports r t.game.boosts (t.laidAway u) := by
  intro r copper t settle a result
  have hexec : exec (a.execute r) t = (.ok result, (exec (a.execute r) t).2) :=
    Prod.ext (by decide +kernel) rfl
  refine ⟨_, by decide, by decide +kernel, hexec, by decide +kernel, fun h => ?_⟩
  have hnone : t.laidAway (exec (a.execute r) t).2 = [] := by decide +kernel
  have hcount := h.count
  rw [hnone] at hcount
  cases hcount

end Assignment

end Treasury
