import Treasury.Definitions.Check
import Treasury.Proofs.Execution.Failing

/-!
# What a checked catalog promises

Three kinds of effects fail when data is missing: the treasure that is to be created, the card that
is to be added or the source of a multiplier. The check of a catalog is there to find that out
before a game begins, and it does but for one case: that a grade can be created is no reason for it
to look for the card of that grade.

* `Findings.isValid_append` and its companions open the check once.
* `Effect.Sound`: what the check asks of an effect, by `Effect.isValid_check_iff`, and
  `Catalog.sound_of_mem_effects`: it is asked of every effect of a catalog, wherever it occurs.
* `Assignment.Succeeds` and when the three kinds do.
* `Catalog.execute_succeeds_iff`: with a catalog without errors they succeed, unless the card of a
  treasure is missing.
-/

namespace Treasury

/-! ## The parts of a check -/

namespace Findings

@[simp]
theorem isValid_empty : ({} : Findings).isValid = true := rfl

@[simp]
theorem isValid_append (f g : Findings) : (f ++ g).isValid = (f.isValid && g.isValid) := by
  rw [Bool.eq_iff_iff, Bool.and_eq_true]
  simp only [isValid, List.isEmpty_iff]
  exact List.append_eq_nil_iff

@[simp]
theorem isValid_errorIf (condition : Bool) (text : String) :
    (errorIf condition text).isValid = !condition := by
  cases condition <;> rfl

@[simp]
theorem isValid_warningIf (condition : Bool) (text : String) :
    (warningIf condition text).isValid = true := rfl

@[simp]
theorem isValid_within (place : String) (f : Findings) : (f.within place).isValid = f.isValid :=
  List.isEmpty_map

/-- There are no errors in a list if there are none in its items. -/
@[simp]
theorem isValid_all (check : α → Findings) (items : List α) :
    (all check items).isValid = items.all fun a => (check a).isValid := by
  rw [Bool.eq_iff_iff, List.all_eq_true, isValid, all, List.isEmpty_iff, List.flatMap_eq_nil_iff]
  simp only [isValid, List.isEmpty_iff]

end Findings

/-! ## Sound effects -/

namespace Effect

/-- What the check asks of an effect of a known kind. -/
structure Sound (e : Effect) (c : Catalog) (kind : EffectKind) : Prop where
  /-- It does not act on fewer than no cards. -/
  maxTargets_nonneg : 0 ≤ e.maxTargets
  /-- Where it creates a treasure, it states the place of a grade. -/
  grade : kind = .createTempTreasure → ∃ g, e.createGrade.bind Grade.atPlace? = some g
  /-- Where it gambles, the chance is a percentage. -/
  chance : kind = .gamble → 0 ≤ e.successChance ∧ e.successChance ≤ 100
  /-- Where it multiplies, there is a source that carries the multiplier. -/
  source : kind = .goldMultiplier → ∃ s, e.dynamic = some s
  /-- Where it adds a card, it names one that is defined. -/
  card : kind = .addCardToDeck → e.cardId.getD "" ≠ "" ∧ c.hasCard (e.cardId.getD "") = true
  /-- All dice that it rolls have sides. -/
  dice : ∀ s ∈ e.sources, s.kind = .known .randomDice → 1 ≤ s.base

/-- There is nothing wrong with a source unless it rolls a die without sides. -/
theorem isValid_checkSource_iff (s : ValueSource) (name : String) (target : TargetKind) :
    (s.check name target).isValid = true ↔ (s.kind = .known .randomDice → 1 ≤ s.base) := by
  unfold ValueSource.check
  rcases s.kind with kind | word
  · cases kind <;> simp
  · simp

/-- There is nothing wrong with an effect if it is sound or of an unknown kind. -/
theorem isValid_check_iff (e : Effect) (c : Catalog) :
    (e.check c).isValid = true ↔ ∀ kind, e.kind = .known kind → e.Sound c kind := by
  unfold check
  rcases e.kind with kind | word
  · -- Each kind has one check of its own at most, and each of these is one part of soundness.
    have hkind : (e.checkKind kind c).isValid = true ↔
        (kind = .createTempTreasure → ∃ g, e.createGrade.bind Grade.atPlace? = some g) ∧
        (kind = .gamble → 0 ≤ e.successChance ∧ e.successChance ≤ 100) ∧
        (kind = .goldMultiplier → ∃ s, e.dynamic = some s) ∧
        (kind = .addCardToDeck →
          e.cardId.getD "" ≠ "" ∧ c.hasCard (e.cardId.getD "") = true) := by
      cases kind
      case createTempTreasure => simp [checkKind, Option.isSome_iff_exists]
      case gamble => simp [checkKind]
      case goldMultiplier => simp [checkKind, Option.isSome_iff_exists]
      case addCardToDeck => by_cases hnamed : e.cardId.getD "" = "" <;> simp [checkKind, hnamed]
      all_goals simp [checkKind]
    simp only [Findings.isValid_append, Findings.isValid_errorIf, Findings.isValid_all,
      Bool.and_eq_true, List.all_eq_true, isValid_checkSource_iff, hkind, Word.known.injEq,
      forall_eq', Bool.not_eq_true', decide_eq_false_iff_not, Int.not_lt]
    constructor
    · rintro ⟨⟨hmax, hgrade, hchance, hsource, hcard⟩, hdice⟩
      exact ⟨hmax, hgrade, hchance, hsource, hcard, hdice⟩
    · rintro ⟨hmax, hgrade, hchance, hsource, hcard, hdice⟩
      exact ⟨⟨hmax, hgrade, hchance, hsource, hcard⟩, hdice⟩
  · simp

end Effect

/-! ## All effects of a catalog -/

namespace Catalog

/-- All groups of a catalog: those of its cards, of its events and of their choices. -/
def groups (c : Catalog) : List Group :=
  c.cards.flatMap (·.effects) ++
    c.events.flatMap fun ev => ev.effects ++ ev.choices.flatMap (·.effects)

/-- All effects of a catalog, whether or not the conditions of their groups have to hold. -/
def effects (c : Catalog) : List Effect := c.groups.flatMap fun g => g.effects ++ g.elseEffects

end Catalog

/-- Without errors in the choices of an event there are none in their groups. -/
theorem Choice.isValid_check_of_mem {c : Catalog} {seen : List String} {choices : List Choice}
    (h : (checkAll c seen choices).isValid = true) {choice : Choice} (hchoice : choice ∈ choices)
    {g : Group} (hg : g ∈ choice.effects) : (g.check c).isValid = true := by
  induction choices generalizing seen with
  | nil => cases hchoice
  | cons first rest ih =>
    simp only [checkAll, Findings.isValid_append, Findings.isValid_within, Findings.isValid_all,
      Bool.and_eq_true, List.all_eq_true] at h
    rcases List.mem_cons.mp hchoice with rfl | hchoice
    · exact h.1.2 g hg
    · exact ih h.2 hchoice

namespace Catalog

variable {c : Catalog}

/-- Without errors in a catalog there are none in its groups. -/
theorem isValid_check_of_mem_groups (h : c.check.isValid = true) {g : Group} (hg : g ∈ c.groups) :
    (g.check c).isValid = true := by
  simp only [check, Findings.isValid_append, Findings.isValid_all, Findings.isValid_warningIf,
    Bool.and_eq_true, List.all_eq_true] at h
  obtain ⟨⟨hcards, hevents⟩, -⟩ := h
  -- A group is one of a card, of an event or of a choice, and is checked there.
  rcases List.mem_append.mp hg with hg | hg
  · obtain ⟨d, hd, hg⟩ := List.mem_flatMap.mp hg
    have hcard := hcards d hd
    simp only [CardDefinition.check, Findings.isValid_append, Findings.isValid_within,
      Findings.isValid_all, Bool.and_eq_true, List.all_eq_true] at hcard
    exact hcard.2 g hg
  · obtain ⟨ev, hev, hg⟩ := List.mem_flatMap.mp hg
    have hevent := hevents ev hev
    simp only [EventDefinition.check, Findings.isValid_append, Findings.isValid_within,
      Findings.isValid_all, Findings.isValid_warningIf, Bool.and_eq_true, List.all_eq_true,
      and_true] at hevent
    rcases List.mem_append.mp hg with hg | hg
    · exact hevent.1.2 g hg
    · obtain ⟨choice, hchoice, hg⟩ := List.mem_flatMap.mp hg
      exact Choice.isValid_check_of_mem hevent.2 hchoice hg

/-- Without errors in a catalog all its effects are sound. -/
theorem sound_of_mem_effects (h : c.check.isValid = true) {e : Effect} (he : e ∈ c.effects)
    {kind : EffectKind} (hkind : e.kind = .known kind) : e.Sound c kind := by
  obtain ⟨g, hg, he⟩ := List.mem_flatMap.mp he
  have hgroup := isValid_check_of_mem_groups h hg
  simp only [Group.check, Findings.isValid_append, Findings.isValid_all, Bool.and_eq_true,
    List.all_eq_true] at hgroup
  exact (e.isValid_check_iff c).mp (hgroup.2 e he) kind hkind

end Catalog

/-! ## Effects that succeed -/

namespace Assignment

variable {a : Assignment} {r : Rules} {t : Table}

/-- Carried out on a table, the effect does not fail on the way and counts as a success. -/
def Succeeds (a : Assignment) (r : Rules) (t : Table) : Prop :=
  ∃ result, (exec (a.execute r) t).1 = .ok result ∧ result.success = true

/-- What never fails and answers with successes only is a success. -/
theorem succeeds_of_sure (hsure : Play.Sure (a.execute r))
    (hanswers : Answers (fun result => result.success = true) (a.execute r)) : a.Succeeds r t := by
  rcases hdone : (exec (a.execute r) t).1 with f | result
  · exact (hsure t f hdone).elim
  · exact ⟨result, hdone, hanswers t result hdone⟩

/-- An effect that fails at once is no success. -/
theorem not_succeeds_of_failed (h : a.execute r = pure a.failed) : ¬ a.Succeeds r t := by
  rintro ⟨result, hdone, hsuccess⟩
  rw [h] at hdone
  cases hdone
  cases hsuccess

/-- A treasure is created if the effect states a grade whose card is defined. -/
theorem succeeds_createTempTreasure_iff (hr : r.outOfOrder = [])
    (hkind : a.effect.kind = .known .createTempTreasure) :
    a.Succeeds r t ↔
      ∃ d, (a.effect.createGrade.bind Grade.atPlace?).bind r.catalog.treasure? = some d := by
  have hexecute : a.execute r = a.createTreasure r := execute_of_known hkind r
  cases hcard : (a.effect.createGrade.bind Grade.atPlace?).bind r.catalog.treasure? with
  | none =>
    refine iff_of_false (not_succeeds_of_failed ?_) (by simp)
    rw [hexecute, createTreasure, hcard]
  | some d =>
    refine iff_of_true (succeeds_of_sure ?_ ?_) ⟨d, rfl⟩ <;> rw [hexecute]
    · exact sure_createTreasure hr a
    · rw [createTreasure, hcard]
      exact .bind fun _ => .pure rfl

/-- The multiplier of the turn is multiplied if the effect has a source that carries one. -/
theorem succeeds_goldMultiplier_iff (hr : r.outOfOrder = [])
    (hkind : a.effect.kind = .known .goldMultiplier) :
    a.Succeeds r t ↔ ∃ s, a.effect.dynamic = some s := by
  have hexecute : a.execute r = a.multiplyGold r := execute_of_known hkind r
  cases hsource : a.effect.dynamic with
  | none =>
    refine iff_of_false (not_succeeds_of_failed ?_) (by simp)
    rw [hexecute, multiplyGold, hsource]
  | some s =>
    refine iff_of_true (succeeds_of_sure ?_ ?_) ⟨s, rfl⟩ <;> rw [hexecute]
    · exact sure_multiplyGold hr a
    · rw [multiplyGold, hsource]
      exact .bind fun _ => .pure rfl

/-- Copies of a card are added if the effect names one that is defined. -/
theorem succeeds_addCardToDeck_iff (hr : r.outOfOrder = [])
    (hkind : a.effect.kind = .known .addCardToDeck) :
    a.Succeeds r t ↔ a.effect.cardId.getD "" ≠ "" ∧
      r.catalog.hasCard (a.effect.cardId.getD "") = true := by
  have hexecute : a.execute r = a.addCardToDeck r := execute_of_known hkind r
  by_cases hcard : a.effect.cardId.getD "" = "" ∨
    (!r.catalog.hasCard (a.effect.cardId.getD "")) = true
  · refine iff_of_false (not_succeeds_of_failed ?_) (by simpa [imp_iff_or_not, or_comm] using hcard)
    rw [hexecute]
    exact if_pos (by simpa using hcard)
  · refine iff_of_true (succeeds_of_sure ?_ ?_) (by simpa using hcard) <;> rw [hexecute]
    · exact sure_addCardToDeck hr a
    · rw [addCardToDeck, if_neg (by simpa using hcard)]
      exact .bind fun _ => .pure rfl

end Assignment

/-- An effect states a grade of treasure that has no card in a catalog. -/
def Effect.LacksTreasure (e : Effect) (c : Catalog) : Prop :=
  e.kind = .known .createTempTreasure ∧
    ∃ g, e.createGrade.bind Grade.atPlace? = some g ∧ c.treasure? g = none

/-- Where the check of a catalog finds no errors, an effect of it that creates a treasure, adds a
card or multiplies gold succeeds, wherever it occurs in the catalog, however large it is and
whatever the game is like. The one exception is a treasure whose card is not in the catalog. -/
theorem Catalog.execute_succeeds_iff {r : Rules} (hvalid : r.catalog.check.isValid = true)
    (hr : r.outOfOrder = []) {a : Assignment} (heffect : a.effect ∈ r.catalog.effects)
    {kind : EffectKind} (hkind : a.effect.kind = .known kind)
    (hneeds : kind ∈ [.createTempTreasure, .addCardToDeck, .goldMultiplier]) (t : Table) :
    a.Succeeds r t ↔ ¬ a.effect.LacksTreasure r.catalog := by
  have hsound := sound_of_mem_effects hvalid heffect hkind
  -- Of the other two kinds all data is checked.
  have hother : kind ≠ .createTempTreasure → ¬ a.effect.LacksTreasure r.catalog := by
    rintro hne ⟨hcreates, -⟩
    exact hne (Word.known.inj (hkind.symm.trans hcreates))
  cases kind
  case createTempTreasure =>
    obtain ⟨g, hg⟩ := hsound.grade rfl
    rw [Assignment.succeeds_createTempTreasure_iff hr hkind, hg, Option.bind_some,
      ← Option.ne_none_iff_exists', Effect.LacksTreasure]
    simp [hkind, hg]
  case addCardToDeck =>
    exact iff_of_true ((Assignment.succeeds_addCardToDeck_iff hr hkind).mpr (hsound.card rfl))
      (hother nofun)
  case goldMultiplier =>
    exact iff_of_true ((Assignment.succeeds_goldMultiplier_iff hr hkind).mpr (hsound.source rfl))
      (hother nofun)
  all_goals simp at hneeds

/-- With copper in the catalog, a card that creates a copper treasure can be relied on. -/
theorem Catalog.execute_succeeds_of_copper :
    let create : Effect := { kind := .known .createTempTreasure, createGrade := some 1 }
    let mint : CardDefinition :=
      { id := "mint", name := "Mint", kind := .action, effects := [.always [create]] }
    let r : Rules := { catalog := { cards := [Starter.treasure .copper, mint] } }
    let a : Assignment := { effect := create, magnitude := 0 }
    let t : Table := { game := {}, dice := { twister := { words := #[], used := 0 } } }
    r.catalog.check.isValid = true ∧ create ∈ r.catalog.effects ∧ a.Succeeds r t := by
  intro create mint r a t
  have hvalid : r.catalog.check.isValid = true := by decide +kernel
  have heffect : create ∈ r.catalog.effects := by decide
  refine ⟨hvalid, heffect, ?_⟩
  refine (Catalog.execute_succeeds_iff hvalid rfl (a := a) heffect rfl (by decide) t).mpr ?_
  rintro ⟨-, g, hg, hmissing⟩
  obtain rfl : Grade.copper = g := Option.some.inj hg
  cases hmissing

/-- The check finds nothing wrong with a card that creates an emerald where there is no emerald, and
its effect fails. -/
theorem Catalog.not_succeeds_of_no_emerald :
    let create : Effect := { kind := .known .createTempTreasure, createGrade := some 4 }
    let mint : CardDefinition :=
      { id := "mint", name := "Mint", kind := .action, effects := [.always [create]] }
    let r : Rules := { catalog := { cards := [mint] } }
    let a : Assignment := { effect := create, magnitude := 0 }
    let t : Table := { game := {}, dice := { twister := { words := #[], used := 0 } } }
    r.catalog.check.isValid = true ∧ create ∈ r.catalog.effects ∧
      (exec (a.execute r) t).1 = .ok (.failed create.kind) ∧ ¬ a.Succeeds r t := by
  intro create mint r a t
  have hfailed : (exec (a.execute r) t).1 = .ok (.failed create.kind) := by decide +kernel
  refine ⟨by decide +kernel, by decide, hfailed, ?_⟩
  rintro ⟨result, hdone, hsuccess⟩
  rw [hfailed] at hdone
  cases hdone
  cases hsuccess

end Treasury
