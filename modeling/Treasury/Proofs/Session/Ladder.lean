import Treasury.Proofs.Execution.Boosting
import Treasury.Proofs.Session.Identity

/-!
# Boosts add up

However often a treasure is boosted, and whatever else is done in between, it ends where the sum of
all steps takes it, or at the top of the ladder. What a card is boosted to is kept by its serial
number, so this needs that every effect which is given a card of that number is given this card.

* `Table.Course.boosts_induction`: along a course, boosts are a matter of the effects alone.
* `Execution.stepsOfAll`: by how many steps effects boost a card together.
* `Table.Course.boosts_add_up` is the statement for courses.
* `GameState.Sole` and `Session.exists_course_knowing`: in every run of a session effects are given
  no other card of the serial number, so that its courses are among these.
-/

namespace Treasury

variable {r : Rules} {c : Card} {g : Grade} {t u : Table} {xs : List Execution}

/-! ## Boosts along a course -/

theorem Table.boosts_play (c : Card) (u : Table) :
    (exec (Deck.play r c) u).2.game.boosts = u.game.boosts := by
  obtain ⟨f, hdone⟩ | ⟨-, hdone⟩ := Deck.exec_play_cases r c u <;> rw [hdone]

/-- Whatever else happens between effects leaves all boosts. -/
theorem Table.Course.boosts_induction {motive : List Execution → Boosts → Prop}
    (hcourse : t.Course r xs u) (none : motive [] t.game.boosts)
    (carriedOut : ∀ {xs} (x : Execution), motive xs x.before.game.boosts →
      motive (xs ++ [x]) (x.after r).game.boosts) : motive xs u.game.boosts := by
  refine hcourse.label_induction (motive := fun xs u => motive xs u.game.boosts) none ?_ ?_
  · intro xs u v hstep ih
    cases hstep with
    | rolled hroll =>
      obtain ⟨dice, rfl⟩ := hroll
      exact ih
    | named _ id =>
      obtain ⟨n, hn⟩ := u.game.exists_snd_cardNamed id
      rw [hn]
      exact ih
    -- None of what happens between effects boosts a card.
    | spent =>
      have haside : u.Aside (exec (Economy.consumeAction r) u).2 := Aside.consumeAction u
      rwa [haside.boosts]
    | played => rwa [boosts_play]
  · intro xs u x v hstep ih
    cases hstep
    exact carriedOut x ih

namespace Execution

/-- By how many steps some effects boost a card together. -/
def stepsOfAll (c : Card) (xs : List Execution) : Nat := (xs.map (·.assignment.stepsOf c)).sum

theorem stepsOfAll_append_singleton (c : Card) (xs : List Execution) (x : Execution) :
    stepsOfAll c (xs ++ [x]) = stepsOfAll c xs + x.assignment.stepsOf c := by
  simp [stepsOfAll]

/-- The order of the effects does not matter. -/
theorem stepsOfAll_eq_of_perm {ys : List Execution}
    (h : (ys.map (·.assignment)).Perm (xs.map (·.assignment))) :
    stepsOfAll c ys = stepsOfAll c xs := by
  have hsteps := (h.map (·.stepsOf c)).sum_nat
  rwa [List.map_map, List.map_map] at hsteps

/-- Some steps are made if and only if an effect hits the card. -/
theorem stepsOfAll_pos_iff : 0 < stepsOfAll c xs ↔ ∃ x ∈ xs, x.assignment.Hits c := by
  rw [stepsOfAll, List.sum_pos_iff_exists_pos_nat]
  simp only [List.mem_map, exists_exists_and_eq_and, Assignment.stepsOf_pos_iff]

end Execution

/-- The tables that a course leads over: the one where it starts, those before and after each
effect, and the one where it ends. -/
def Table.stations (r : Rules) (t : Table) (xs : List Execution) (u : Table) : List Table :=
  t :: xs.flatMap (fun x => [x.before, x.after r]) ++ [u]

namespace Table.Course

/-- A treasure is raised by the steps of all effects together. -/
theorem grade?_eq (hcourse : t.Course r xs u) (hgrade : r.treasureGrade? c = some g)
    (hknows : ∀ x ∈ xs, x.assignment.Knows c) : u.game.boosts.grade? c =
      g.raise (t.game.boosts.grade? c) (Execution.stepsOfAll c xs) := by
  revert hknows
  refine hcourse.boosts_induction (motive := fun xs boosts =>
    (∀ x ∈ xs, x.assignment.Knows c) →
      boosts.grade? c = g.raise (t.game.boosts.grade? c) (Execution.stepsOfAll c xs)) ?_ ?_
  · exact fun _ => rfl
  · intro xs x ih hknows
    rw [List.forall_mem_append, List.forall_mem_singleton] at hknows
    rw [Execution.after, Assignment.grade?_execute hgrade hknows.2, ih hknows.1, Grade.raise_raise,
      Execution.stepsOfAll_append_singleton]

/-- Nowhere along a course a treasure is worth less than before. -/
theorem worthOf_pairwise_le (hcourse : t.Course r xs u) (hgrade : r.treasureGrade? c = some g)
    (hknows : ∀ x ∈ xs, x.assignment.Knows c) :
    (stations r t xs u).Pairwise fun v w =>
      r.worthOf v.game.boosts c ≤ r.worthOf w.game.boosts c := by
  -- What is behind is sorted, and nothing in it is worth more than where the course has come to.
  have hbehind : ((t :: xs.flatMap fun x => [x.before, x.after r]).Pairwise fun v w =>
        r.worthOf v.game.boosts c ≤ r.worthOf w.game.boosts c) ∧
      ∀ v ∈ t :: xs.flatMap fun x => [x.before, x.after r],
        r.worthOf v.game.boosts c ≤ r.worthOf u.game.boosts c := by
    revert hknows
    refine hcourse.boosts_induction (motive := fun xs boosts =>
      (∀ x ∈ xs, x.assignment.Knows c) →
        ((t :: xs.flatMap fun x => [x.before, x.after r]).Pairwise fun v w =>
          r.worthOf v.game.boosts c ≤ r.worthOf w.game.boosts c) ∧
        ∀ v ∈ t :: xs.flatMap fun x => [x.before, x.after r],
          r.worthOf v.game.boosts c ≤ r.worthOf boosts c) ?_ ?_
    · exact fun _ => ⟨List.pairwise_singleton _ t, List.forall_mem_singleton.mpr le_rfl⟩
    · intro xs x ih hknows
      rw [List.forall_mem_append, List.forall_mem_singleton] at hknows
      obtain ⟨hsorted, hle⟩ := ih hknows.1
      have hstep : r.worthOf x.before.game.boosts c ≤ r.worthOf (x.after r).game.boosts c :=
        Assignment.worthOf_le_execute hgrade hknows.2 x.before
      rw [List.flatMap_append, List.flatMap_singleton, ← List.cons_append]
      constructor
      · rw [List.pairwise_append, List.pairwise_pair]
        refine ⟨hsorted, hstep, fun v hv w hw => ?_⟩
        rcases List.mem_pair.mp hw with rfl | rfl
        · exact hle v hv
        · exact (hle v hv).trans hstep
      · rw [List.forall_mem_append]
        refine ⟨fun v hv => (hle v hv).trans hstep, fun v hv => ?_⟩
        rcases List.mem_pair.mp hv with rfl | rfl
        · exact hstep
        · exact le_rfl
  rw [stations, List.pairwise_append]
  refine ⟨hbehind.1, List.pairwise_singleton _ u, fun v hv w hw => ?_⟩
  rw [List.mem_singleton.mp hw]
  exact hbehind.2 v hv

end Table.Course

/-- A treasure of a grade has climbed a number of steps of the ladder. -/
structure Table.Raised (r : Rules) (c : Card) (g : Grade) (steps : Nat) (u : Table) : Prop where
  /-- The card is boosted to the grade that many steps up. -/
  grade?_eq : u.game.boosts.grade? c = some (g.climb steps)
  /-- That grade stands that many places higher, and no higher than a diamond. -/
  place_eq : (g.climb steps).place = min Grade.diamond.place (g.place + steps)
  /-- The card is worth that grade. -/
  worthOf_eq : r.worthOf u.game.boosts c = (g.climb steps).worth
  /-- The service that settles treasures answers with that worth. -/
  settle : Service.settle ∉ r.outOfOrder →
    (exec (Deck.settle r [c]) u).1 = .ok (g.climb steps).worth
  /-- An effect that settles the card pays that worth, as a gain under the modifiers. -/
  pays : Service.settle ∉ r.outOfOrder → Service.addGold ∉ r.outOfOrder → ∀ a : Assignment,
    a.effect.kind = .known .settleCard → a.targets = [c] →
      ∀ paid, Economy.modifiedGain u.game (g.climb steps).worth = .ok paid →
        ∃ v, exec (a.execute r) u = (.ok (a.done 1 (g.climb steps).worth), v) ∧
          v.game.gold = u.game.gold + paid

/-- What a card is boosted to says all about it. -/
theorem Table.raised_of_grade? (hgrade : r.treasureGrade? c = some g) {n : Nat}
    (h : u.game.boosts.grade? c = some (g.climb n)) : u.Raised r c g n := by
  have hworth : r.worthOf u.game.boosts c = (g.climb n).worth := by
    rw [Rules.worthOf_of_treasureGrade? hgrade, h, Option.getD_some]
  refine ⟨h, g.place_climb n, hworth, fun hin => ?_,
    fun hin hgain a hkind htargets paid hpaid => ?_⟩
  · rw [Rules.exec_settle_single hgrade hin, hworth]
  · rw [← hworth] at hpaid ⊢
    exact Assignment.exec_execute_settle_single hgrade hin hgain hkind htargets hpaid

/-- Along any course with effects that boost a treasure which was not boosted before, whatever other
effects it is made of, the treasure climbs as many steps as there are in all of them together, or to
the top, and it is worth no less at any point than before. In another order, or with the same steps
split otherwise, the course leads to the same. -/
theorem Table.Course.boosts_add_up (hcourse : t.Course r xs u)
    (hknows : ∀ x ∈ xs, x.assignment.Knows c) (hgrade : r.treasureGrade? c = some g)
    (hplain : t.game.boosts.grade? c = .none) (hhit : ∃ x ∈ xs, x.assignment.Hits c) :
    u.Raised r c g (Execution.stepsOfAll c xs) ∧
      ((stations r t xs u).Pairwise fun v w =>
        r.worthOf v.game.boosts c ≤ r.worthOf w.game.boosts c) ∧
      ∀ ys v, t.Course r ys v → (∀ y ∈ ys, y.assignment.Knows c) →
        (ys.map (·.assignment)).Perm (xs.map (·.assignment)) ∨
          Execution.stepsOfAll c ys = Execution.stepsOfAll c xs →
        v.game.boosts.grade? c = u.game.boosts.grade? c := by
  have hgrade?_eq := hcourse.grade?_eq hgrade hknows
  refine ⟨?_, hcourse.worthOf_pairwise_le hgrade hknows, ?_⟩
  · refine raised_of_grade? hgrade ?_
    rw [hgrade?_eq, hplain, Grade.raise_of_pos g _ (Execution.stepsOfAll_pos_iff.mpr hhit)]
    rfl
  · intro ys v hother hknows' hsame
    have hsteps : Execution.stepsOfAll c ys = Execution.stepsOfAll c xs :=
      hsame.elim Execution.stepsOfAll_eq_of_perm id
    rw [hother.grade?_eq hgrade hknows', hgrade?_eq, hsteps]

/-- A copper that is boosted by one step, since the magnitude is zero, then settled, and then
boosted by three more is a sapphire. -/
theorem boosts_add_up_of_copper :
    let r : Rules := { catalog := { cards := [Starter.treasure .copper] } }
    let copper : Card := { serial := 1, instanceId := "copper#1", cardId := "copper" }
    let t : Table :=
      { game := { zones := { hand := [copper] } },
        dice := { twister := { words := #[], used := 0 } } }
    let on (kind : EffectKind) (n : Int) : Assignment :=
      { effect := { kind := .known kind }, magnitude := n, targets := [copper] }
    let first : Execution := ⟨on .boostTreasure 0, t⟩
    let second : Execution := ⟨on .settleCard 0, first.after r⟩
    let third : Execution := ⟨on .boostTreasure 3, second.after r⟩
    let xs := [first, second, third]
    let u := third.after r
    t.Course r xs u ∧ (∀ x ∈ xs, x.assignment.Knows copper) ∧
      r.treasureGrade? copper = some .copper ∧ t.game.boosts.grade? copper = none ∧
      (∃ x ∈ xs, x.assignment.Hits copper) ∧ u.game.boosts.grade? copper = some .sapphire := by
  intro r copper t on first second third xs u
  have hboosted : t.Course r [first] (first.after r) := .of_step (Table.Step.carriedOut first)
  have hsettled : t.Course r [first, second] (second.after r) :=
    hboosted.snoc (Table.Step.carriedOut second)
  have hcourse : t.Course r xs u := hsettled.snoc (Table.Step.carriedOut third)
  have hknows : ∀ x ∈ xs, x.assignment.Knows copper := by
    intro x hx d hd _
    simp only [xs, List.mem_cons, List.not_mem_nil, or_false] at hx
    rcases hx with rfl | rfl | rfl <;> exact List.mem_singleton.mp hd
  have hgrade : r.treasureGrade? copper = some .copper := by decide
  have hplain : t.game.boosts.grade? copper = none := rfl
  have hhit : ∃ x ∈ xs, x.assignment.Hits copper :=
    ⟨first, List.mem_cons_self, rfl, List.mem_singleton_self copper⟩
  refine ⟨hcourse, hknows, hgrade, hplain, hhit, ?_⟩
  exact (Table.Course.boosts_add_up hcourse hknows hgrade hplain hhit).1.grade?_eq.trans
    (by decide +kernel)

/-! ## Runs -/

namespace GameState

variable {outside : List Card} {g g' : GameState}

/-- No other card around has the serial number of the given one, and none that is still to be made
will have it. -/
structure Sole (outside : List Card) (c : Card) (g : GameState) : Prop where
  /-- The number was reached. -/
  serial_le : c.serial ≤ g.copiesMade
  /-- Only the card has it. -/
  eq_of_serial : ∀ d, Around outside g d → d.serial = c.serial → d = c

/-- A card among others that are told apart by their serial numbers is the only one of its own. -/
theorem Coherent.sole (h : g.Coherent outside) (hc : g.Around outside c) : g.Sole outside c where
  serial_le := h.serial_le c hc
  eq_of_serial d hd hserial := h.serial_inj d c hd hc hserial

theorem Sole.mono {fewer : List Card} (h : g.Sole outside c)
    (hsub : ∀ d ∈ fewer, g.Around outside d ∨ (d.serial = c.serial → d = c)) :
    g.Sole fewer c where
  serial_le := h.serial_le
  eq_of_serial d hd hserial := by
    rcases hd with hd | hd
    · exact h.eq_of_serial d (.inl hd) hserial
    · rcases hsub d hd with hd | hd
      · exact h.eq_of_serial d hd hserial
      · exact hd hserial

/-- New copies have greater numbers. -/
theorem Evolves.sole (h : Evolves outside g g') (hg : g.Sole outside c) : g'.Sole outside c := by
  obtain ⟨-, hcopies, new, hfresh, -, hmem⟩ := h
  refine ⟨hg.serial_le.trans hcopies, ?_⟩
  rintro d (hd | hd) hserial
  · rcases hmem d hd with hd | hd | hd
    · exact hg.eq_of_serial d (.inl hd) hserial
    · exact hg.eq_of_serial d (.inr hd) hserial
    · have hnew := (hfresh.serial_range d hd).1
      have hold := hg.serial_le
      omega
  · exact hg.eq_of_serial d (.inr hd) hserial

theorem Sole.cardNamed (h : g.Sole outside c) (id : String) :
    (g.cardNamed id).2.Sole ((g.cardNamed id).1 :: outside) c := by
  have hsole : (g.cardNamed id).2.Sole outside c := (Evolves.cardNamed id g).sole h
  refine hsole.mono fun d hd => ?_
  rcases List.mem_cons.mp hd with rfl | hd
  · unfold GameState.cardNamed
    dsimp only
    split
    · next d hd =>
      have hmem := List.mem_of_find?_eq_some hd
      refine .inl (.inl (Zones.mem_cards.mpr ?_))
      simp only [List.mem_append] at hmem
      tauto
    · right
      intro hserial
      -- A card that is made for the name has a number past all that were given out.
      have hnumber : g.copiesMade + 1 = c.serial := hserial
      have hold := h.serial_le
      omega
  · exact .inl (.inr hd)

end GameState

/-- That a course of effects which know a card leads here from a table, and that the card is the
only one of its serial number, is not lost, whatever happens in a session. -/
theorem Table.invariant_knowing (r : Rules) (c : Card) (t : Table) :
    Table.SessionInvariant r fun known u =>
      (∃ xs, t.Course r xs u ∧ ∀ x ∈ xs, x.assignment.Knows c) ∧ u.game.Sole known c where
  fewer hfew h := ⟨h.1, h.2.mono fun d hd => .inl (hfew d hd).symm⟩
  rolled := by
    rintro _ u _ hroll ⟨⟨xs, hcourse, hknows⟩, hsole⟩
    refine ⟨⟨xs, hcourse.silent (.rolled hroll), hknows⟩, ?_⟩
    obtain ⟨dice, rfl⟩ := hroll
    exact hsole
  execute := by
    rintro a known u ha ⟨⟨xs, hcourse, hknows⟩, hsole⟩
    refine ⟨⟨_, hcourse.snoc (.carriedOut ⟨a, u⟩), ?_⟩, ?_⟩
    · rw [Option.toList_some, List.forall_mem_append, List.forall_mem_singleton]
      exact ⟨hknows, fun d hd => hsole.eq_of_serial d (.inr (ha d hd))⟩
    · exact (Table.Evolves.execute (r := r) a ha u).sole hsole
  named := by
    rintro id known u ⟨⟨xs, hcourse, hknows⟩, hsole⟩
    exact ⟨⟨xs, hcourse.silent (.named u id), hknows⟩, hsole.cardNamed id⟩
  spent := by
    rintro known u ⟨⟨xs, hcourse, hknows⟩, hsole⟩
    exact ⟨⟨xs, hcourse.silent (.spent u), hknows⟩, (Table.Evolves.consumeAction u).sole hsole⟩
  played := by
    rintro known u d hd ⟨⟨xs, hcourse, hknows⟩, hsole⟩
    refine ⟨⟨xs, hcourse.silent (.played hd), hknows⟩, ?_⟩
    -- The played card is on the table, so it may be spoken of while it is moved.
    have hmore : u.game.Sole (d :: known) c := hsole.mono fun e he => .inl <| by
      rcases List.mem_cons.mp he with rfl | he
      · exact .inl (Zones.mem_cards_iff_exists.mpr ⟨.hand, hd⟩)
      · exact .inr he
    have hplayed := (Table.Evolves.playCard (r := r) List.mem_cons_self u).sole hmore
    exact hplayed.mono fun e he => .inl (.inr (List.mem_cons_of_mem d he))

/-- In a session whose cards are told apart by their serial numbers, whatever the calls, the effects
know every card, unless a host starts an activation from another card of its serial number. -/
theorem Session.exists_course_knowing (s : Session) (calls : List SessionCall)
    (hcoherent : s.game.Coherent s.machine.held) (hc : s.game.Around s.machine.held c)
    (hsource : ∀ groups d, .start groups (some d) ∈ calls → d.serial = c.serial → d = c) :
    ∃ xs, s.machine.table.Course r xs (s.afterAll r calls).machine.table ∧
      ∀ x ∈ xs, x.assignment.Knows c := by
  have hP := Table.invariant_knowing r c s.machine.table
  have hrun := preserves_afterAll hP s calls fun groups d hd known u ⟨hcourse, hsole⟩ =>
    ⟨hcourse, hsole.mono fun e he => by
      rcases List.mem_cons.mp he with rfl | he
      · exact .inr (hsource groups e hd)
      · exact .inl (.inr he)⟩
  exact (hrun ⟨⟨[], .refl _, fun _ hx => nomatch hx⟩, hcoherent.sole hc⟩).1

end Treasury
