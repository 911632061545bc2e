import Treasury.Proofs.Activation.Dealing
import Treasury.Proofs.Definitions.Alerts
import Treasury.Proofs.Execution.Exchange
import Treasury.Proofs.Numeric.Range
import Treasury.Proofs.Session.Atomicity
import Treasury.Starter.Cards

/-!
# Whether warnings come true

Most warnings of a check say what the engine will make of a definition. The statements here are
about the parts of the engine that these definitions come to: the evaluation of conditions, the
choice of the effects of a group, carrying effects out, targets, value sources and the calls of a
session.

* `Issue.ComesTrue`: what a warning says, as a statement about the engine.
* `Dealings.count_eq_zero_iff`: what an effect counts in all runs is what it counts at every step.
  `Dealings.idle_iff` says so of the permanent upgrades that there is a warning for.
* `Issue.Misjudged`: a permanent upgrade is said to find no treasures, and there are ways to come to
  one.
* `Catalog.alerts_comeTrue_iff`: all warnings of a check come true but for these.
-/

namespace Treasury

open Numeric (Binary64)

variable {r : Rules} {e : Effect} {c : Card} {targets : List Card} {source : Option Card}
  {g : GameState}

/-! ## Sources and unknown kinds -/

namespace ValueSource

/-- Whatever nothing is multiplied by, it stays nothing. -/
theorem scaled_zero (multiplier : Binary64) : scaled 0 multiplier = .ok 0 := by
  change (if (Binary64.mul (.zero false) multiplier).isFinite then
    (Binary64.mul (.zero false) multiplier).round else .ok 0) = _
  rcases hfinite : multiplier.isFinite with _ | _
  · rcases multiplier with _ | negative | _
    · rfl
    · rfl
    · cases hfinite
  · obtain ⟨negative, hzero⟩ := Binary64.exists_mul_eq_zero hfinite
    rw [hzero, Binary64.round_zero]
    exact if_pos rfl

/-- The gold value of no targets is nothing. -/
theorem resolve_targetGoldValue_nil {s : ValueSource} (hkind : s.kind = .known .targetGoldValue)
    (r : Rules) (results : ResultStack) (t : Table) :
    exec (s.resolve r results []) t = (.ok 0, t) := by
  have hbase : exec (s.baseResult r results []) t = (.ok 0, t) := by
    unfold baseResult
    rw [Play.exec_game_bind, hkind]
    rfl
  rw [resolve, exec_bind, hbase]
  dsimp only
  rw [scaled_zero]
  rfl

/-- A source of an unknown kind reads its own base. -/
theorem baseResult_of_unknown {s : ValueSource} {word : String}
    {hword : Vocabulary.ofName? (α := SourceKind) word = none} (hkind : s.kind = .other word hword)
    (r : Rules) (results : ResultStack) (targets : List Card) (t : Table) :
    exec (s.baseResult r results targets) t = (.ok s.base, t) := by
  unfold baseResult
  rw [Play.exec_game_bind, hkind]
  rfl

end ValueSource

/-- An effect of an unknown kind leaves the game as it is. -/
theorem Pending.game_carriedOut_of_unknown {p : Pending} {word : String}
    {hword : Vocabulary.ofName? (α := EffectKind) word = none}
    (hkind : p.effect.kind = .other word hword) (r : Rules) (targets : List Card)
    (results : ResultStack) (t : Table) :
    (exec (p.carriedOut r targets results) t).2.game = t.game := by
  obtain ⟨dice, hrolled⟩ := p.keeps_magnitude r targets results t
  rw [p.exec_carriedOut]
  rcases hmagnitude : exec (p.magnitude r targets results) t with ⟨f | magnitude, u⟩ <;>
    rw [hmagnitude] at hrolled <;> obtain rfl : u = _ := hrolled
  · rfl
  · dsimp only
    rw [Assignment.execute_of_unknown (by exact hkind), exec_pure]

/-! ## Upgrades -/

/-- Only treasures are upgraded. -/
theorem Rules.kindOf_of_upgrade? (h : (r.upgrade? c).isSome = true) :
    r.kindOf c = some .treasure := by
  obtain ⟨grade, hgrade⟩ := Option.isSome_iff_exists.mp h
  obtain ⟨own, hown, -⟩ := Option.bind_eq_some_iff.mp hgrade
  unfold treasureGrade? at hown
  split at hown
  · next d hd =>
    split at hown
    · next htreasure =>
      rw [kindOf, Catalog.kind?, hd]
      exact congrArg some (of_decide_eq_true htreasure)
    · cases hown
  · cases hown

/-- A permanent upgrade counts nothing if no target is a treasure below the highest grade that the
hand holds. -/
theorem Assignment.count_eq_zero_iff {a : Assignment} {t : Table}
    (hkind : a.effect.kind = .known .permanentUpgrade) :
    ((exec (a.execute r) t).1.toOption.getD a.failed).count = 0 ↔
      ¬ ∃ c ∈ a.targets, (r.upgrade? c).isSome = true ∧ t.game.zones.hand.holds c = true := by
  have hexecute : a.execute r = a.upgradeTreasure r := execute_of_known hkind r
  rw [hexecute, exec_upgradeTreasure, ← upgraded_count_eq_zero_iff]
  exact Int.ofNat_eq_zero

/-- In all runs an effect counts nothing if it does so whenever it is carried out on targets that it
takes. -/
theorem Dealings.count_eq_zero_iff :
    (∀ g xs g', Dealings r g xs g' → ∀ x ∈ xs, x.assignment.effect = e →
      (x.result r).count = 0) ↔
      ∀ (a : Assignment) source t, a.effect = e → e.Takes r source a.targets t.game →
        ((exec (a.execute r) t).1.toOption.getD a.failed).count = 0 := by
  constructor
  · rintro h a source t rfl htakes
    exact h _ _ _ (.of_step (GameState.Deal.carriedOut (x := ⟨a, t⟩) htakes)) ⟨a, t⟩
      (List.mem_singleton_self _) rfl
  · intro hstep g xs g' hdealings x hmem he
    refine hdealings.forall_label (P := fun x => x.assignment.effect = e →
      (x.result r).count = 0) ?_ x hmem he
    rintro _ _ x (_ | htakes) rfl
    exact hstep x.assignment _ x.before rfl htakes

namespace Effect

/-- The targets of an effect are not asked for as treasures, and may be treasures for all that: the
source of the activation, the top card of the deck, or hand cards picked at random. -/
def MayFindTreasures (e : Effect) : Prop :=
  e.target = .self ∨ e.target = .deckTop ∨ (e.target = .random ∧ 0 ≤ e.maxTargets)

/-- An effect that takes any card at random takes no negative number of them. -/
theorem maxTargets_nonneg_of_takes (htarget : e.target = .random) (h : e.Takes r source targets g)
    (hc : c ∈ targets) : 0 ≤ e.maxTargets := by
  cases h with
  | picked hsel =>
    rw [htarget] at hsel
    cases hsel
  | @collected t hsel hgame h =>
    unfold autoTargets at h
    rw [Play.exec_game_bind, htarget] at h
    by_contra hnegative
    have hhand := List.ne_nil_of_mem (mem_hand_of_mem_randomTargets h hc)
    obtain ⟨f, hf⟩ := (e.randomTargets_fails_iff _ t).mpr ⟨Int.not_le.mp hnegative, hhand⟩
    cases h.symm.trans hf

/-- No other effect of these takes a card that can be upgraded. -/
theorem not_upgradable_of_takes (htarget : e.target ∉ [.handTreasure, .handCard, .allHandTreasure])
    (hfind : ¬ e.MayFindTreasures) (h : e.Takes r source targets g) (hc : c ∈ targets) :
    ¬ (r.upgrade? c).isSome = true := by
  intro hupgrade
  -- Where cards of one kind are wanted, these are no treasures.
  have hwanted : ∀ kind, e.target.wanted? = some kind → kind = .treasure := fun kind hwanted =>
    Option.some.inj ((kindOf_of_takes hwanted h hc).symm.trans (Rules.kindOf_of_upgrade? hupgrade))
  rcases htarget' : e.target <;> rw [htarget'] at hwanted htarget
  case none =>
    rw [eq_nil_of_takes htarget' h] at hc
    cases hc
  case self => exact hfind (.inl htarget')
  case deckTop => exact hfind (.inr (.inl htarget'))
  case random =>
    exact hfind (.inr (.inr ⟨htarget', maxTargets_nonneg_of_takes htarget' h hc⟩))
  case handPollution | allHandPollution | handAction => cases hwanted _ rfl
  case handTreasure | handCard | allHandTreasure => simp at htarget

/-- From a hand of one card, that card is picked at random. -/
theorem randomTargets_singleton (hmax : 0 ≤ e.maxTargets) (c : Card) (t : Table) :
    (exec (e.randomTargets [c]) t).1 = .ok [c] := by
  have hcount : e.randomCount [c].length = 1 := by
    unfold randomCount
    rw [List.length_singleton]
    split <;> omega
  have hsample := t.dice.sample_singleton c
  unfold randomTargets
  rw [if_neg (by simp), exec_bind, Play.exec_throwDice, hcount]
  -- The sample is named, so that nothing looks into it.
  generalize t.dice.sample [c] 1 = drawn at hsample ⊢
  obtain ⟨picked, dice⟩ := drawn
  obtain rfl : picked = some [c] := hsample
  rfl

/-- An effect that may find treasures may take any one card, wherever the hand holds it. -/
theorem takes_of_mayFindTreasures (h : e.MayFindTreasures) (r : Rules) (c : Card) :
    e.Takes r (some c) [c] { zones := { deck := [c], hand := [c] } } := by
  let t : Table :=
    { game := { zones := { deck := [c], hand := [c] } },
      dice := { twister := { words := #[], used := 0 } } }
  -- The three kinds of targets are all collected, without asking anybody.
  have hcollected : e.target.needsSelection = false →
      (exec (e.autoTargets r (some c)) t).1 = .ok [c] → e.Takes r (some c) [c] t.game :=
    fun hsel => .collected hsel rfl
  rcases h with htarget | htarget | ⟨htarget, hmax⟩
  · refine hcollected (by rw [htarget]; rfl) ?_
    rw [autoTargets, Play.exec_game_bind, htarget]
    rfl
  · refine hcollected (by rw [htarget]; rfl) ?_
    rw [autoTargets, Play.exec_game_bind, htarget]
    rfl
  · refine hcollected (by rw [htarget]; rfl) ?_
    rw [autoTargets, Play.exec_game_bind, htarget]
    exact randomTargets_singleton hmax c t

end Effect

/-- A permanent upgrade that is not asked for as one of treasures finds none in any dealings, unless
it may find treasures and some card can be upgraded. -/
theorem Dealings.idle_iff {e : Effect} (hkind : e.kind = .known .permanentUpgrade)
    (htarget : e.target ∉ [.handTreasure, .handCard, .allHandTreasure]) (r : Rules) :
    (∀ g xs g', Dealings r g xs g' → ∀ x ∈ xs, x.assignment.effect = e →
        (x.result r).count = 0) ↔
      ¬ (e.MayFindTreasures ∧ ∃ c, (r.upgrade? c).isSome = true) := by
  refine Dealings.count_eq_zero_iff.trans ⟨?_, ?_⟩
  · rintro h ⟨hfind, c, hupgrade⟩
    -- Where the deck and the hand hold that card alone, it is found and upgraded.
    let t : Table :=
      { game := { zones := { deck := [c], hand := [c] } },
        dice := { twister := { words := #[], used := 0 } } }
    let a : Assignment := { effect := e, magnitude := 0, targets := [c] }
    have htakes := Effect.takes_of_mayFindTreasures hfind r c
    have hcount := h a (some c) t rfl htakes
    refine (Assignment.count_eq_zero_iff (a := a) hkind).mp hcount ?_
    exact ⟨c, List.mem_singleton_self c, hupgrade, by simp [t, Pile.holds, Card.same]⟩
  · rintro h a source t rfl htakes
    refine (Assignment.count_eq_zero_iff hkind).mpr ?_
    rintro ⟨c, hc, hupgrade, -⟩
    by_cases hfind : a.effect.MayFindTreasures
    · exact h ⟨hfind, c, hupgrade⟩
    · exact Effect.not_upgradable_of_takes htarget hfind htakes hc hupgrade

/-! ## Calls of a session -/

namespace Session

/-- A card that is no action card is not played. -/
theorem call_play_of_not_action {s : Session} {instanceId : String} {d : CardDefinition}
    (hc : s.game.zones.hand.named? instanceId = some c) (hd : r.catalog.card? c.cardId = some d)
    (hkind : d.isAction = false) : ∃ error, s.call r (.play instanceId) = (.error error, s) := by
  -- The card is found and defined, so that it is no action card is what is told.
  have hplayable : s.playable r instanceId = .error (.notAnAction d.name d.kind) := by
    unfold playable
    rw [hc]
    dsimp only
    rw [hd]
    exact if_neg (Bool.eq_false_iff.mp hkind)
  change ∃ error, exec (play r instanceId) s = _
  unfold play ready
  rw [bind_assoc, exec_get_bind]
  rcases s.status
  · rw [pure_bind, exec_get_bind, hplayable]
    exact ⟨_, rfl⟩
  · exact ⟨_, rfl⟩
  · exact ⟨_, rfl⟩

/-- What an event with choices would do is one of its choices. -/
theorem groupsOf_of_hasChoices {s : Session} {eventId : String} {choiceId : Option String}
    {ev : EventDefinition} (hev : r.catalog.event? eventId = some ev)
    (hchoices : ev.hasChoices = true) {groups : List Group}
    (h : s.groupsOf r eventId choiceId = .ok groups) :
    ∃ choice ∈ ev.choices, groups = choice.effects := by
  unfold groupsOf event at h
  rw [hev] at h
  dsimp only [bind, Except.bind] at h
  rw [hchoices] at h
  split at h
  · cases h
  · -- Without a choice there are no groups, and with one they are those of the choice.
    rcases choiceId with _ | choiceId
    · cases h
    · rw [Bool.not_true, if_neg Bool.false_ne_true] at h
      dsimp only at h
      rcases hchoice : ev.choice? choiceId with _ | choice <;> rw [hchoice] at h
      · cases h
      · dsimp only at h
        split at h
        · cases h
          exact ⟨choice, List.mem_of_find?_eq_some hchoice, rfl⟩
        · cases h

/-- Where an event has choices, it is refused, or the effects of a choice begin. -/
theorem call_trigger_of_hasChoices {s : Session} {eventId : String} {choiceId : Option String}
    {ev : EventDefinition} (hev : r.catalog.event? eventId = some ev)
    (hchoices : ev.hasChoices = true) :
    (∃ error, s.call r (.trigger eventId choiceId) = (.error error, s)) ∨
      ∃ choice ∈ ev.choices, s.call r (.trigger eventId choiceId) =
        exec (engine r fun tell => Engine.start tell r choice.effects none) s := by
  change (∃ error, exec (trigger r eventId choiceId) s = _) ∨
    ∃ choice ∈ ev.choices, exec (trigger r eventId choiceId) s = _
  unfold trigger ready
  rw [bind_assoc, exec_get_bind]
  rcases s.status
  · rw [pure_bind, exec_get_bind]
    rcases hgroups : s.groupsOf r eventId choiceId with error | groups
    · exact .inl ⟨error, rfl⟩
    · obtain ⟨choice, hchoice, rfl⟩ := groupsOf_of_hasChoices hev hchoices hgroups
      exact .inr ⟨choice, hchoice, rfl⟩
  · exact .inl ⟨_, rfl⟩
  · exact .inl ⟨_, rfl⟩

end Session

/-! ## All warnings -/

namespace Issue

/-- What the warning about an issue says will happen does happen, in every state and for every draw
of the dice. -/
def ComesTrue (r : Rules) : Issue → Prop
  | unknownCondition c _ _ => ∀ g results, c.holds r g results = true
  | deadElse grp _ => ∀ g results, grp.chosen r g results = grp.effects
  | unknownEffect e _ _ => ∀ (p : Pending) targets results t, p.effect = e →
    (exec (p.carriedOut r targets results) t).2.game = t.game
  | idleUpgrade e _ _ => ∀ g xs g', Dealings r g xs g' → ∀ x ∈ xs, x.assignment.effect = e →
    (x.result r).count = 0
  | worthlessSource _ e s _ _ => ∀ source targets results t, e.Takes r source targets t.game →
    (exec (s.resolve r results targets) t).1 = .ok 0
  | unknownSource _ s _ _ => ∀ targets results t,
    (exec (s.baseResult r results targets) t).1 = .ok s.base
  | ignoredEffects ev _ => ∀ (s : Session) eventId choiceId, r.catalog.event? eventId = some ev →
    (∃ error, s.call r (.trigger eventId choiceId) = (.error error, s)) ∨
      ∃ choice ∈ ev.choices, s.call r (.trigger eventId choiceId) =
        exec (Session.engine r fun tell => Engine.start tell r choice.effects none) s
  | idleEffects d _ => ∀ (s : Session) instanceId c,
    s.game.zones.hand.named? instanceId = some c → r.catalog.card? c.cardId = some d →
      ∃ error, s.call r (.play instanceId) = (.error error, s)
  | remark _ => True

/-- A permanent upgrade is said to find no treasures, but it may, and some card can be upgraded. -/
def Misjudged (r : Rules) : Issue → Prop
  | idleUpgrade e _ _ => e.MayFindTreasures ∧ ∃ c, (r.upgrade? c).isSome = true
  | _ => False

/-- An issue comes true unless it is misjudged. -/
theorem comesTrue_iff (issue : Issue) (r : Rules) : issue.ComesTrue r ↔ ¬ issue.Misjudged r := by
  cases issue with
  | unknownCondition c word hkind =>
    exact iff_of_true (Condition.holds_of_unknown hkind r) id
  | deadElse grp hconditions =>
    refine iff_of_true (fun g results => ?_) id
    rw [Group.chosen, hconditions]
    rfl
  | unknownEffect e word hkind =>
    refine iff_of_true ?_ id
    rintro p targets results t rfl
    exact p.game_carriedOut_of_unknown hkind r targets results t
  | idleUpgrade e hkind htarget => exact Dealings.idle_iff hkind htarget r
  | worthlessSource name e s hkind htarget =>
    refine iff_of_true (fun source targets results t htakes => ?_) id
    rw [Effect.eq_nil_of_takes htarget htakes]
    exact congrArg Prod.fst (s.resolve_targetGoldValue_nil hkind r results t)
  | unknownSource name s word hkind =>
    refine iff_of_true (fun targets results t => ?_) id
    exact congrArg Prod.fst (s.baseResult_of_unknown hkind r results targets t)
  | ignoredEffects ev hchoices =>
    exact iff_of_true (fun s _ _ hev => s.call_trigger_of_hasChoices hev hchoices) id
  | idleEffects d hkind =>
    exact iff_of_true (fun s _ _ hc hd => s.call_play_of_not_action hc hd hkind) id
  | remark text => exact iff_of_true trivial id

end Issue

/-- The warnings of a catalog are those of its alerts, and each of them comes true unless it is
misjudged: it says that a permanent upgrade finds no treasures which finds them. The runs that it
speaks of are those of the calls of a host, with all calls that observers make inside them: what
these carry out are such dealings. -/
theorem Catalog.alerts_comeTrue_iff (r : Rules) :
    r.catalog.check.warnings = r.catalog.alerts.map (·.text) ∧
      (∀ alert ∈ r.catalog.alerts, alert.issue.ComesTrue r ↔ ¬ alert.issue.Misjudged r) ∧
      ∀ (m : Machine) (cs : List HostCall), m.Asked r → m.DoesAll r cs (m.deeds r cs) ∧
        Dealings r m.table.game (Deed.executionsIn (m.deeds r cs))
          (m.afterCalls r cs).table.game := by
  refine ⟨r.catalog.raises_check, fun alert _ => alert.issue.comesTrue_iff r, ?_⟩
  exact fun m cs hasked => ⟨m.doesAll_deeds cs, m.dealings_of_calls hasked cs⟩

/-- A permanent upgrade of a card picked at random is said to find no treasures, and it upgrades the
copper in hand. -/
theorem not_comesTrue_of_random_upgrade :
    let upgrade : Effect := { kind := .known .permanentUpgrade, target := .random }
    let forge : CardDefinition :=
      { id := "forge", name := "Forge", kind := .action, effects := [.always [upgrade]] }
    let r : Rules :=
      { catalog := { cards := [Starter.treasure .copper, Starter.treasure .silver, forge] } }
    let copper : Card := { serial := 1, instanceId := "copper#1", cardId := "copper" }
    let m : Machine :=
      { table := { game := { zones := { hand := [copper] }, instancesMade := 1, copiesMade := 1 },
                   dice := { twister := { words := #[], used := 0 } } } }
    r.catalog.check.warnings =
        ["Card 'forge': permanent_upgrade: target 'random' never yields treasures to upgrade"] ∧
      (m.call r (.start forge.effects none)).1.toOption.map (·.results) =
        some [{ kind := .known .permanentUpgrade, success := true, count := 1 }] := by
  intro upgrade forge r copper m
  refine ⟨by decide +kernel, by decide +kernel⟩

end Treasury
