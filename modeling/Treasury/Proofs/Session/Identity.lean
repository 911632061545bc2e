import Treasury.Proofs.Execution.Evolution
import Treasury.Proofs.Session.Deeds
import Treasury.Starter.Setup

/-!
# Every card is in one place

Whatever a player and a host do in a session, no instance id is on the table twice, and an id that
is made is one that was never used before.

* `GameState.Opening`: the games that a run may start from, which are all games of the starter and
  all whose ids are made by the game and differ.
* `Session.continues_afterAll`: the calls of a run let the game evolve.
* `ids_nodup_and_new_ids_unused` is the statement for runs.
-/

namespace Treasury

/-! ## Games go on by evolving -/

/-- The second game comes of the first, whatever cards were let in. -/
def GameState.Continues (g g' : GameState) : Prop := ∃ outside, g.Evolves outside g'

instance : IsPreorder GameState GameState.Continues where
  refl g := ⟨[], Std.Refl.refl g⟩
  trans := by
    rintro g g' g'' ⟨outside, h⟩ ⟨more, k⟩
    have hfirst : g.Evolves (outside ++ more) g' := h.mono fun _ hc => List.mem_append_left _ hc
    have hrest : g'.Evolves (outside ++ more) g'' := k.mono fun _ hc => List.mem_append_right _ hc
    exact ⟨outside ++ more, IsTrans.trans _ _ _ hfirst hrest⟩

theorem Table.Evolves.consumeAction {r : Rules} {outside : List Card} :
    Keeps (Table.Evolves outside) (Economy.consumeAction r) :=
  keeps_of_moves <| Moves.keeps_of_sheds <| Sheds.keeps_of_reorders <|
    Reorders.keeps_of_aside Aside.consumeAction

-- Playing a card moves it from the hand to the play area.
theorem Table.Evolves.playCard {r : Rules} {outside : List Card} {c : Card} (hc : c ∈ outside) :
    Keeps (Table.Evolves outside) (Deck.play r c) := by
  intro t
  obtain ⟨f, hdone⟩ | ⟨hheld, hdone⟩ := Deck.exec_play_cases r c t <;> rw [hdone]
  · exact Std.Refl.refl (r := Table.Evolves outside) t
  · exact GameState.Evolves.of_moves (.handTo hc hheld .play) le_rfl le_rfl

/-! ## Openings -/

namespace Starter

/-- Copies are made with new numbers, and nothing else of the game changes. -/
theorem copies_fresh (cardIds : List String) (g : GameState) :
    g.Fresh (copies cardIds g).2 (copies cardIds g).1 ∧ (copies cardIds g).2.zones = g.zones ∧
      g.instancesMade ≤ (copies cardIds g).2.instancesMade ∧
      g.copiesMade ≤ (copies cardIds g).2.copiesMade := by
  induction cardIds generalizing g with
  | nil => exact ⟨.nil g g, rfl, le_rfl, le_rfl⟩
  | cons cardId rest ih =>
    obtain ⟨hfresh, hzones, hinst, hcopies⟩ := ih (g.newCard cardId false none).2
    have hfirst := GameState.Fresh.newCard g cardId false none
    refine ⟨?_, hzones, (Nat.le_succ _).trans hinst, (Nat.le_succ _).trans hcopies⟩
    exact hfirst.append hfresh (Nat.le_succ _) hinst (Nat.le_succ _) hcopies

/-- The household is beside the table. -/
theorem withHousehold_table (g : GameState) : (withHousehold g).zones = g.zones ∧
    (withHousehold g).instancesMade = g.instancesMade ∧
      (withHousehold g).copiesMade = g.copiesMade := ⟨rfl, rfl, rfl⟩

/-- A new game comes of an empty table. -/
theorem gameOf_evolves (gameId : String) (o : Options) (d : Random.Dice) :
    GameState.Evolves [] { gameId, gold := o.gold } (gameOf gameId o d) := by
  unfold gameOf
  dsimp only
  generalize (if o.deck.isEmpty then defaultDeck else o.deck) = deck
  obtain ⟨hfresh, -, hinst, hcopies⟩ := copies_fresh deck { gameId, gold := o.gold }
  generalize copies deck { gameId, gold := o.gold } = made at *
  -- The copies are shuffled and split into hand and deck, and no other pile has cards.
  have hperm : (d.shuffle made.1).1.Perm made.1 := Random.Dice.shuffle_perm made.1 d
  generalize (d.shuffle made.1).1 = shuffled at hperm ⊢
  have hcards : (dealt shuffled o.handSize).cards.Perm made.1 := by
    have hboth : (dealt shuffled o.handSize).cards =
        (dealt shuffled o.handSize).deck ++ (dealt shuffled o.handSize).hand := by
      simp only [Zones.cards, dealt, List.append_nil]
    have hswap := (List.perm_append_comm
      : ((dealt shuffled o.handSize).deck ++ (dealt shuffled o.handSize).hand).Perm _)
    rw [dealt_hand_append_deck, ← hboth] at hswap
    exact hswap.trans hperm
  obtain ⟨hzones, hinst', hcopies'⟩ :=
    withHousehold_table { made.2 with zones := dealt shuffled o.handSize }
  generalize withHousehold { made.2 with zones := dealt shuffled o.handSize } = g at *
  refine ⟨hinst.trans hinst'.ge, hcopies.trans hcopies'.ge, made.1,
    hfresh.mono hinst'.ge hcopies'.ge, ?_, fun c hc => ?_⟩
  · rw [Zones.ids, hzones, Pile.ids_of_perm hcards]
    exact Multiset.le_add_left _ _
  · rw [hzones] at hc
    exact .inr (.inr (hcards.subset hc))

/-- In a new game all ids are made by the game and differ. -/
theorem setup_wellmade (seed : Option Int) (entropy : Int) (o : Options) :
    (setup seed entropy o).Wellmade := by
  have hempty : ∀ gameId, ({ gameId, gold := o.gold } : GameState).Wellmade := fun _ =>
    ⟨Multiset.nodup_zero, fun _ hid => absurd hid (Multiset.notMem_zero _)⟩
  cases seed with
  | some n => exact (gameOf_evolves _ o _).wellmade (hempty _)
  | none => exact (gameOf_evolves _ o _).wellmade (hempty _)

end Starter

/-- A game that a run may start from: one of the starter, or any whose ids are all made by the game
and differ. -/
def GameState.Opening (g : GameState) : Prop :=
  (∃ seed entropy o, g = Starter.setup seed entropy o) ∨ g.Wellmade

theorem GameState.Opening.wellmade {g : GameState} (h : g.Opening) : g.Wellmade := by
  obtain ⟨seed, entropy, o, rfl⟩ | h := h
  · exact Starter.setup_wellmade seed entropy o
  · exact h

/-! ## Runs -/

/-- Whatever happens to the table, the game goes on. -/
theorem Table.Step.continues {r : Rules} {t u : Table} {x : Option Execution}
    (hstep : Step r t x u) : t.game.Continues u.game := by
  cases hstep with
  | rolled hroll =>
    obtain ⟨dice, rfl⟩ := hroll
    exact Std.Refl.refl (r := GameState.Continues) t.game
  | named _ id => exact ⟨[], GameState.Evolves.cardNamed id t.game⟩
  | spent => exact ⟨[], Evolves.consumeAction t⟩
  | @played _ c _ => exact ⟨[c], Evolves.playCard (List.mem_singleton_self c) t⟩
  | carriedOut x =>
    exact ⟨x.assignment.targets, Evolves.execute x.assignment (fun _ hc => hc) x.before⟩

/-- The table at the end of a course has a game that comes of that at the start. -/
theorem Table.Course.continues {r : Rules} {t u : Table} {xs : List Execution}
    (h : t.Course r xs u) : t.game.Continues u.game := by
  induction h with
  | refl => exact Std.Refl.refl (r := GameState.Continues) t.game
  | snoc _ hstep ih => exact IsTrans.trans (r := GameState.Continues) _ _ _ ih hstep.continues

/-- Whatever the calls, the game goes on. -/
theorem Session.continues_afterAll {r : Rules} (s : Session) (calls : List SessionCall) :
    s.game.Continues (s.afterAll r calls).game :=
  (s.course_afterAll (r := r) calls).continues

/-- An id that was made before the end of a run, or that was on the table at the end of one of its
calls or at its start. -/
def Session.Used (r : Rules) (s : Session) (calls : List SessionCall) (id : String) : Prop :=
  (s.afterAll r calls).game.Spent id ∨
    ∃ before, before <+: calls ∧ id ∈ (s.afterAll r before).game.zones.ids

/-- From an opening, after any calls, no id is on the table twice. Whatever the calls after those,
an id that is made in them was not used before, and the ids that turn up on the table were made in
them. -/
theorem ids_nodup_and_new_ids_unused {r : Rules} {s : Session} (hopen : s.game.Opening)
    (calls later : List SessionCall) :
    (s.afterAll r calls).game.zones.ids.Nodup ∧
      (∀ id, (s.afterAll r calls).game.MadeSince (s.afterAll r (calls ++ later)).game id →
        ¬ s.Used r calls id) ∧
      ∀ id ∈ (s.afterAll r (calls ++ later)).game.zones.ids,
        id ∉ (s.afterAll r calls).game.zones.ids →
          (s.afterAll r calls).game.MadeSince (s.afterAll r (calls ++ later)).game id := by
  have hstart := hopen.wellmade
  refine ⟨?_, ?_, ?_⟩
  · obtain ⟨_, hrun⟩ := Session.continues_afterAll (r := r) s calls
    exact (hrun.wellmade hstart).nodup
  · rintro id hmade (hspent | ⟨before, hprefix, hid⟩)
    · exact hmade.not_spent hspent
    · -- What was on the table at some point was made by then, and so before the end.
      obtain ⟨rest, rfl⟩ := hprefix
      obtain ⟨_, hfirst⟩ := Session.continues_afterAll (r := r) s before
      obtain ⟨_, hrest⟩ := Session.continues_afterAll (r := r) (s.afterAll r before) rest
      have hspent := hrest.spent ((hfirst.wellmade hstart).spent id hid)
      rw [← Session.afterAll_append] at hspent
      exact hmade.not_spent hspent
  · intro id hid hnew
    obtain ⟨_, hlater⟩ := Session.continues_afterAll (r := r) (s.afterAll r calls) later
    rw [← Session.afterAll_append] at hlater
    exact hlater.madeSince_of_mem hid hnew

/-- A silver is created by a card that is played, and then a copper is upgraded to another silver by
a second one. The new silver has an id that was not used before. -/
theorem ids_nodup_of_mint_and_refine :
    let r : Rules := { catalog := Starter.catalog }
    let card (cardId : String) (n : Nat) : Card :=
      { serial := n, instanceId := numbered cardId n, cardId }
    let game : GameState :=
      { actions := 2, zones := { hand := [card "mint" 1, card "refine" 2, card "copper" 3] },
        instancesMade := 3, copiesMade := 3 }
    let s : Session :=
      { id := "session-1", createdAt := .zero false, seed := none,
        machine := { table := { game, dice := { twister := { words := #[], used := 0 } } } } }
    let calls : List SessionCall := [.play "mint#1"]
    let later : List SessionCall := [.play "refine#2", .select ["copper#3"]]
    let ids (calls : List SessionCall) : List String :=
      (s.afterAll r calls).game.zones.cards.map (·.instanceId)
    s.game.Opening ∧ ids calls = ["refine#2", "copper#3", "silver#4", "mint#1"] ∧
      ids (calls ++ later) = ["silver#5", "silver#4", "mint#1", "refine#2"] ∧
      (s.afterAll r (calls ++ later)).game.zones.ids.Nodup ∧ ¬ s.Used r calls "silver#5" := by
  intro r card game s calls later ids
  have hopen : s.game.Opening := by
    refine .inr ⟨by decide +kernel, fun id hid => ?_⟩
    have hid : id ∈ [numbered "mint" 1, numbered "refine" 2, numbered "copper" 3] := hid
    simp only [List.mem_cons, List.not_mem_nil, or_false] at hid
    rcases hid with rfl | rfl | rfl
    · exact ⟨"mint", 1, by decide, by decide, rfl⟩
    · exact ⟨"refine", 2, by decide, by decide, rfl⟩
    · exact ⟨"copper", 3, by decide, by decide, rfl⟩
  have hids : ids calls = ["refine#2", "copper#3", "silver#4", "mint#1"] := by decide +kernel
  have hlast : ids (calls ++ later) = ["silver#5", "silver#4", "mint#1", "refine#2"] := by
    decide +kernel
  obtain ⟨-, hfresh, hmade⟩ := ids_nodup_and_new_ids_unused (r := r) hopen calls later
  have hnodup := (ids_nodup_and_new_ids_unused (r := r) hopen (calls ++ later) []).1
  refine ⟨hopen, hids, hlast, hnodup, hfresh "silver#5" (hmade "silver#5" ?_ fun hold => ?_)⟩
  · show "silver#5" ∈ ids (calls ++ later)
    rw [hlast]
    decide
  · have hold : "silver#5" ∈ ids calls := hold
    rw [hids] at hold
    exact absurd hold (by decide)

end Treasury
