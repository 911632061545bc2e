import Treasury.Proofs.Activation.Failure
import Treasury.Proofs.Activation.Invariant
import Treasury.Proofs.Execution.Evolution
import Treasury.Proofs.Execution.Frame

/-!
# Selections

An effect that asks for cards should act on the cards it is given and on no others. The theorem here
compares the table before and after such an effect is carried out: cards outside the selection lie
where they lay, with all that belongs to them.

* `Machine.Reachable`: what a host can bring about, with any commands, standing orders and changes
  of its own between them.
* `Reachable.coherent`: on the way, serial numbers tell all cards apart that are on the table or
  that the machine keeps.
* `Table.Undisturbed ids`: nothing happens to cards that are not named by the ids.
* `dispatched_undisturbed_iff`: of the six kinds, only a destruction of pollution that is given no
  cards disturbs others, and exactly if there is pollution for it to take.
-/

namespace Treasury

/-- That cards are told apart by their serial numbers holds throughout. -/
theorem Table.invariant_coherent (r : Rules) :
    Table.Invariant r fun known t => GameState.Coherent known t.game where
  fewer hfew h := h.mono fun c hc => (hfew c hc).symm
  rolled := by
    rintro _ t _ ⟨dice, rfl⟩ h
    exact h
  execute a _ t ha h := (Table.Evolves.execute (r := r) a ha t).coherent h
  named id _ _ h := h.cardNamed id

namespace Machine

variable {r : Rules} {m : Machine}

/-- A machine that a host can bring about. -/
inductive Reachable (r : Rules) : Machine → Prop where
  /-- A machine that was never called. -/
  | opening {m : Machine} (hphase : m.phase = .idle) (hheld : m.held = [])
      (hcards : GameState.Coherent [] m.table.game) : Reachable r m
  /-- The host gives a command. -/
  | command {m : Machine} (c : Command) (h : Reachable r m) : Reachable r (m.command r c).2
  /-- The host starts an activation, from a card that it finds on the table or that the machine
  shows it. -/
  | start {m : Machine} (groups : List Group) (source : Option Card)
      (hsource : ∀ c ∈ source, GameState.Around m.held m.table.game c) (h : Reachable r m) :
      Reachable r (m.run r fun tell => Engine.start tell r groups source).2
  /-- The host moves and makes cards between two calls, and changes all else as it likes. -/
  | host {m : Machine} {t : Table} (ht : m.table.Evolves m.held t) (h : Reachable r m) :
      Reachable r { m with table := t }

/-- Serial numbers tell all cards apart that are on the table or that the machine keeps. -/
theorem Reachable.coherent (h : m.Reachable r) : GameState.Coherent m.held m.table.game := by
  have hP := Table.invariant_coherent r
  -- Calls preserve it as an invariant of the table, and so does what a host does in between.
  induction h with
  | opening _ hheld hcards =>
    rw [hheld]
    exact hcards
  | command c _ ih => exact holds_after_command hP c ih
  | start groups source hsource _ ih =>
    exact holds_after_start hP groups source (fun c hc => (hsource c hc).symm) ih
  | host ht _ ih => exact ht.coherent ih

/-- The machine waits for cards: the effect that asked and its request. -/
structure Suspended (m : Machine) (p : Pending) (q : TargetRequest) : Prop where
  /-- The machine waits. -/
  phase_eq : m.phase = .awaitingTarget
  /-- The effect that asked is in work. -/
  current_eq : m.current = some p
  /-- The request is open. -/
  request_eq : m.request = some q

/-- The machine after the effect in work is carried out on selected cards, before any observer is
told: what `Engine.resume` begins with when it accepts a selection. -/
def dispatched (r : Rules) (m : Machine) (targets : List Card) : Machine :=
  (exec (do Engine.dispatch (fun _ => pure ()) r (← Engine.current) targets)
    { m with request := none }).2

end Machine

/-- Nothing happens to the cards on the table that are not named by the ids: they lie in the same
piles, in the same order, with the same boosts. -/
def Table.Undisturbed (ids : List String) (t u : Table) : Prop :=
  t.Spares (fun c => c ∈ t.game.zones.cards ∧ c.instanceId ∉ ids) u

/-- An effect that is given no cards takes pollution from the hand all the same. -/
structure Machine.TakesUnasked (r : Rules) (m : Machine) (p : Pending) (ids : List String) :
    Prop where
  /-- The effect destroys pollution. -/
  kind_eq : p.effect.kind = .known .destroyPollution
  /-- It is given no cards. -/
  ids_eq : ids = []
  /-- There is pollution in hand. -/
  pollution : ∃ c ∈ m.table.game.zones.hand, r.kindOf c = some .pollution
  /-- The service that destroys cards is in order. -/
  served : Service.destroy ∉ r.outOfOrder
  /-- The effect has a magnitude. -/
  measurable : ¬ p.effect.Unmeasurable r m.results [] m.table

section

variable {r : Rules} {m : Machine} {p : Pending} {q : TargetRequest} {ids : List String}
  {targets : List Card}

/-- The magnitude that counts is worked out unless the effect has none, and only dice are thrown
for it. -/
theorem Engine.authoritative_cases (r : Rules) (m : Machine) (p : Pending) (targets : List Card) :
    (p.effect.Unmeasurable r m.results targets m.table ∧ ∃ e t, m.table.Rolled t ∧
      exec (authoritative r p targets) m = (.error e, { m with table := t })) ∨
    (¬ p.effect.Unmeasurable r m.results targets m.table ∧ ∃ n t, m.table.Rolled t ∧
      exec (authoritative r p targets) m = (.ok n, { m with table := t })) := by
  unfold authoritative
  by_cases hdyn : p.effect.isDynamic = true
  · rw [if_pos hdyn, exec_get_bind, Run.exec_play, ← Effect.magnitude_fails_iff]
    have hrolled := Table.Rolled.magnitude p.effect r m.results targets m.table
    unfold Fails
    revert hrolled
    rcases exec (p.effect.magnitude r m.results targets) m.table with ⟨f | n, t⟩
    · exact fun hrolled => .inl ⟨⟨f, rfl⟩, .fault f, t, hrolled, rfl⟩
    · refine fun hrolled => .inr ⟨?_, n, t, hrolled, rfl⟩
      rintro ⟨_, h⟩
      cases h
  -- A fixed magnitude is not worked out again.
  · have hmeasurable : ¬ p.effect.Unmeasurable r m.results targets m.table := by
      rintro ⟨s, hs, hfixed, -⟩
      refine hdyn ?_
      simp only [Effect.isDynamic, hs, hfixed, Bool.not_false]
    rw [if_neg hdyn]
    exact .inr ⟨hmeasurable, p.speculative, m.table, Std.Refl.refl _, rfl⟩

/-- What carrying the effect in work out makes of the table: nothing but a throw of dice, if it has
no magnitude, and else what the effect does. -/
theorem Machine.dispatched_cases (hcurrent : m.current = some p) (targets : List Card) :
    (p.effect.Unmeasurable r m.results targets m.table ∧
      m.table.Rolled (m.dispatched r targets).table) ∨
    (¬ p.effect.Unmeasurable r m.results targets m.table ∧ ∃ magnitude t, m.table.Rolled t ∧
      (m.dispatched r targets).table =
        (exec (Assignment.execute ⟨p.effect, magnitude, m.results, targets⟩ r) t).2) := by
  -- Nobody is told here, so dispatching comes to carrying the effect out.
  have hstart : m.dispatched r targets =
      (exec (Engine.dispatch (fun _ => pure ()) r p targets) { m with request := none }).2 := by
    unfold dispatched Engine.current
    rw [bind_assoc, exec_get_bind, hcurrent]
    rfl
  rw [hstart]
  unfold Engine.dispatch
  rw [exec_modify_bind, exec_bind]
  obtain ⟨hnone, e, t, hrolled, hexec⟩ | ⟨hsome, magnitude, t, hrolled, hexec⟩ :=
    Engine.authoritative_cases r { m with request := none, phase := .dispatching } p targets
  · rw [hexec]
    exact .inl ⟨hnone, hrolled⟩
  · rw [hexec]
    refine .inr ⟨hsome, magnitude, t, hrolled, ?_⟩
    simp only [exec_bind, Run.exec_attempt]
    rfl

/-- A table that lost a card of a pile is not undisturbed by a selection of no cards. -/
theorem Table.not_undisturbed_of_length_lt {t u : Table} {zone : Zone}
    (h : (u.game.zones.pile zone).length < (t.game.zones.pile zone).length) :
    ¬ t.Undisturbed [] u := by
  intro hsame
  -- Every card of the pile is outside an empty selection, so it would have to be there still.
  have hall : ∀ c ∈ t.game.zones.pile zone,
      decide (c ∈ t.game.zones.cards ∧ c.instanceId ∉ ([] : List String)) = true := fun c hc =>
    decide_eq_true ⟨Zones.mem_cards_iff_exists.mpr ⟨zone, hc⟩, List.not_mem_nil⟩
  have hpile := hsame.zones zone
  rw [List.filter_eq_self.mpr hall] at hpile
  have hle := List.length_filter_le
    (fun c => decide (c ∈ t.game.zones.cards ∧ c.instanceId ∉ ([] : List String)))
    (u.game.zones.pile zone)
  rw [hpile] at hle
  omega

/-- Dice are not disturbed. -/
theorem Table.Rolled.undisturbed_iff {t t' u : Table} (h : t.Rolled t') :
    t'.Undisturbed ids u ↔ t.Undisturbed ids u := by
  obtain ⟨dice, rfl⟩ := h
  exact ⟨fun hu => ⟨hu.zones, hu.boosts⟩, fun hu => ⟨hu.zones, hu.boosts⟩⟩

/-- Cards that are told apart from the targets are disturbed by a destruction of pollution only, if
it has no targets, finds pollution in hand and is served. -/
theorem Assignment.execute_undisturbed_iff {a : Assignment} {t : Table} {kind : EffectKind}
    (hkind : a.effect.kind = .known kind) (hselective : kind.isSelective = true)
    (hnil : ids = [] ↔ a.targets = [])
    (havoid : ∀ c ∈ a.targets, c.Avoids fun c => c ∈ t.game.zones.cards ∧ c.instanceId ∉ ids)
    (hold : ∀ c ∈ t.game.zones.cards, c.serial ≤ t.game.copiesMade) :
    t.Undisturbed ids (exec (a.execute r) t).2 ↔
      ¬ (kind = .destroyPollution ∧ ids = [] ∧
        (∃ c ∈ t.game.zones.hand, r.kindOf c = some .pollution) ∧
          Service.destroy ∉ r.outOfOrder) := by
  -- The frame of the six kinds leaves out one case, which is looked into by itself.
  by_cases hunasked : kind = .destroyPollution ∧ ids = []
  · obtain ⟨rfl, rfl⟩ := hunasked
    have hexecute : a.execute r = a.destroyPollution r := execute_of_known hkind r
    rw [hexecute]
    by_cases htakes : (∃ c ∈ t.game.zones.hand, r.kindOf c = some .pollution) ∧
        Service.destroy ∉ r.outOfOrder
    · obtain ⟨zone, hlt⟩ := destroyPollution_takes (hnil.mp rfl) htakes.2 htakes.1
      exact iff_of_false (Table.not_undisturbed_of_length_lt hlt)
        (not_not_intro ⟨rfl, rfl, htakes⟩)
    · refine iff_of_true ?_ fun h => htakes h.2.2
      rw [destroyPollution_idle (hnil.mp rfl) ?_]
      · exact Std.Refl.refl (r := Table.Spares _) t
      · by_cases hserved : Service.destroy ∈ r.outOfOrder
        · exact .inl hserved
        · exact .inr fun c hc hpollution => htakes ⟨⟨c, hc, hpollution⟩, hserved⟩
  · refine iff_of_true ?_ fun h => hunasked ⟨h.1, h.2.1⟩
    refine execute_spares hkind hselective (fun hdestroy htargets => ?_) havoid fun c hc => ?_
    · exact hunasked ⟨hdestroy, hnil.mpr htargets⟩
    · exact hold c (of_decide_eq_true hc).1

/-- A target is a candidate, so a card that is not selected is neither it nor named like it. -/
theorem Machine.Reachable.avoids_of_selected (hreach : m.Reachable r) (hsuspended : m.Suspended p q)
    (hselected : Engine.selected q ids = .ok targets) :
    ∀ c ∈ targets, c.Avoids fun c => c ∈ m.table.game.zones.cards ∧ c.instanceId ∉ ids := by
  intro c hc d hd
  obtain ⟨hcandidate, hid⟩ := Engine.mem_of_selected hselected hc
  obtain ⟨hcard, hother⟩ := of_decide_eq_true hd
  have hheld : c ∈ m.held := by
    rw [Machine.held, hsuspended.request_eq]
    exact List.mem_append_left _ (List.mem_append_left _ hcandidate)
  -- The same id would make the card a selected one, and the same number the same card.
  constructor
  · refine decide_eq_false fun hsame => hother ?_
    rw [hsame]
    exact hid
  · intro hserial
    have hsame := hreach.coherent.serial_inj d c (.inl hcard) (.inr hheld) hserial
    rw [hsame] at hother
    exact hother hid

/-- Of the effects of the six kinds, only a destruction of pollution that is given no cards disturbs
cards outside the selection, and it does so exactly if there is pollution in hand for it to take. -/
theorem dispatched_undisturbed_iff (hreach : m.Reachable r) (hsuspended : m.Suspended p q)
    {kind : EffectKind} (hkind : p.effect.kind = .known kind) (hselective : kind.isSelective = true)
    (hselected : Engine.selected q ids = .ok targets) :
    m.table.Undisturbed ids (m.dispatched r targets).table ∧
        (ids.length : Int) ≤ q.maxSelections ↔ ¬ m.TakesUnasked r p ids := by
  rw [and_iff_left (Engine.selected_eq_ok_iff.mp hselected).2.2.1]
  have hnil : ids = [] ↔ targets = [] := by
    rw [← List.length_eq_zero_iff, ← Engine.length_of_selected hselected, List.length_eq_zero_iff]
  have havoid := hreach.avoids_of_selected hsuspended hselected
  obtain ⟨hnone, dice, hdice⟩ | ⟨hmeasurable, magnitude, t, ⟨dice, rfl⟩, htable⟩ :=
    m.dispatched_cases (r := r) hsuspended.current_eq targets
  · -- The call failed before the effect was carried out.
    rw [hdice]
    refine iff_of_true ⟨fun _ => rfl, fun _ _ => rfl⟩ fun htakes => ?_
    rw [hnil.mp htakes.ids_eq] at hnone
    exact htakes.measurable hnone
  · have hexecute := Assignment.execute_undisturbed_iff (r := r) (t := { m.table with dice })
      (a := ⟨p.effect, magnitude, m.results, targets⟩) hkind hselective hnil havoid
      fun c hc => hreach.coherent.serial_le c (.inl hc)
    rw [htable, ← Table.Rolled.undisturbed_iff ⟨dice, rfl⟩, hexecute, not_iff_not]
    constructor
    · rintro ⟨rfl, rfl, hpollution, hserved⟩
      rw [hnil.mp rfl] at hmeasurable
      exact ⟨hkind, rfl, hpollution, hserved, hmeasurable⟩
    · rintro ⟨hdestroy, hids, hpollution, hserved, -⟩
      rw [hkind] at hdestroy
      cases hdestroy
      exact ⟨rfl, hids, hpollution, hserved⟩

end

namespace Purify

/-- Rules under which debts are pollution. -/
def rules : Rules where
  catalog := { cards := [{ id := "debt", name := "Debt", kind := .pollution }] }

/-- A debt. -/
def debt (n : Nat) : Card := { serial := n, instanceId := numbered "debt" n, cardId := "debt" }

/-- The destruction of up to two pollution cards in hand. -/
def effect : Effect :=
  { kind := .known .destroyPollution, target := .handPollution, maxTargets := 2 }

/-- Three debts in hand. -/
def table : Table where
  game := { zones := { hand := [debt 1, debt 2, debt 3] }, instancesMade := 3, copiesMade := 3 }
  dice := { twister := { words := #[], used := 0 } }

/-- A machine that waits for the debts to be picked. -/
def machine : Machine :=
  (Machine.command { table } rules (.start [Group.always [effect]] none)).2

/-- Its request. -/
def request : TargetRequest where
  targetKind := .handPollution
  maxSelections := 2
  candidates := [debt 1, debt 2, debt 3]
  effectKind := .known .destroyPollution

theorem machine_reachable : machine.Reachable rules := by
  have hle : ∀ c ∈ table.game.zones.cards, c.serial ≤ table.game.copiesMade := by decide
  have hinj : ∀ c ∈ table.game.zones.cards, ∀ d ∈ table.game.zones.cards,
      c.serial = d.serial → c = d := by decide
  refine .command _ (.opening rfl rfl ⟨fun c hc => ?_, fun c d hc hd => ?_⟩)
  · exact hle c (hc.resolve_right List.not_mem_nil)
  · exact hinj c (hc.resolve_right List.not_mem_nil) d (hd.resolve_right List.not_mem_nil)

theorem machine_suspended : machine.Suspended ⟨effect, 0, none⟩ request := ⟨rfl, rfl, rfl⟩

end Purify

/-- Of three debts, the one that is picked goes and the others stay. -/
theorem dispatched_undisturbed_of_one_debt :
    Purify.machine.table.Undisturbed ["debt#1"]
      (Purify.machine.dispatched Purify.rules [Purify.debt 1]).table := by
  have hselected : Engine.selected Purify.request ["debt#1"] = .ok [Purify.debt 1] := rfl
  have hasked : ¬ Purify.machine.TakesUnasked Purify.rules ⟨Purify.effect, 0, none⟩ ["debt#1"] :=
    fun h => List.cons_ne_nil _ _ h.ids_eq
  exact ((dispatched_undisturbed_iff Purify.machine_reachable Purify.machine_suspended rfl rfl
    hselected).mpr hasked).1

/-- Of three debts, none of which is picked, all go, though two could be asked for at most. -/
theorem not_undisturbed_of_no_debt :
    Purify.machine.Reachable Purify.rules ∧
      Purify.machine.Suspended ⟨Purify.effect, 0, none⟩ Purify.request ∧
      Engine.selected Purify.request [] = .ok [] ∧
      ¬ (Purify.machine.table.Undisturbed [] (Purify.machine.dispatched Purify.rules []).table ∧
        (0 : Int) ≤ Purify.request.maxSelections) ∧
      (Purify.machine.command Purify.rules (.resume [])).2.table.game.zones.hand = [] := by
  refine ⟨Purify.machine_reachable, Purify.machine_suspended, rfl, fun h => ?_, rfl⟩
  have hhand := h.1.zones .hand
  have hgone : (Purify.machine.dispatched Purify.rules []).table.game.zones.pile .hand = [] := rfl
  rw [hgone] at hhand
  exact absurd hhand (by decide)

end Treasury
