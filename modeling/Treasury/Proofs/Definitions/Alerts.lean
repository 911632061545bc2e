import Treasury.Definitions.Check

/-!
# Warnings as data

The check of a catalog puts its warnings into words. Here a warning is an `Alert` instead: an
`Issue` with the definitions that it is about and with the grounds for it, and the place where it
was found.

* `Catalog.alerts`: the alerts of a catalog, collected along its definitions.
* `Findings.Raises`: the warnings of a check are the words of some alerts. `Raises.append` and its
  companions carry that through a check as it is put together.
* `Catalog.raises_check`: the warnings of a catalog are the words of its alerts, one by one.
-/

namespace Treasury

/-- What a warning is about, with the grounds for it. -/
inductive Issue where
  /-- A condition is of an unknown kind. -/
  | unknownCondition (c : Condition) (word : String)
    {hword : Vocabulary.ofName? (α := ConditionKind) word = none}
    (hkind : c.kind = .other word hword)
  /-- A group has other effects for when its conditions do not hold, and has no conditions. -/
  | deadElse (g : Group) (hconditions : g.conditions = [])
  /-- An effect is of an unknown kind. -/
  | unknownEffect (e : Effect) (word : String)
    {hword : Vocabulary.ofName? (α := EffectKind) word = none} (hkind : e.kind = .other word hword)
  /-- A permanent upgrade acts on cards that are not asked for as treasures. -/
  | idleUpgrade (e : Effect) (hkind : e.kind = .known .permanentUpgrade)
    (htarget : e.target ∉ [.handTreasure, .handCard, .allHandTreasure])
  /-- An effect without targets reads their gold value. -/
  | worthlessSource (name : String) (e : Effect) (s : ValueSource)
    (hkind : s.kind = .known .targetGoldValue) (htarget : e.target = .none)
  /-- A value source is of an unknown kind. -/
  | unknownSource (name : String) (s : ValueSource) (word : String)
    {hword : Vocabulary.ofName? (α := SourceKind) word = none} (hkind : s.kind = .other word hword)
  /-- A choice event has effects of its own. -/
  | ignoredEffects (ev : EventDefinition) (hchoices : ev.hasChoices = true)
  /-- A card that is no action card has effects. -/
  | idleEffects (d : CardDefinition) (hkind : d.isAction = false)
  /-- Something is odd, but nothing is said of what it will do. -/
  | remark (text : String)

/-- The words for an issue. -/
def Issue.text : Issue → String
  | unknownCondition _ word _ => s!"Unknown condition kind '{word}' is always true"
  | deadElse _ _ => "else_effects on a group without conditions never run"
  | unknownEffect _ word _ => s!"Unknown effect kind '{word}' is skipped"
  | idleUpgrade e _ _ =>
    let name := Vocabulary.name EffectKind.permanentUpgrade
    s!"{name}: target '{Vocabulary.name e.target}' never yields treasures to upgrade"
  | worthlessSource name _ _ _ _ => s!"{name}: target_gold_value without a target is always 0"
  | unknownSource name _ word _ => s!"{name}: unknown value source '{word}' resolves to its base"
  | ignoredEffects _ _ => "effects are ignored on a choice event"
  | idleEffects d _ => s!"Card '{d.id}' is not an action card; its effects never run on play"
  | remark text => text

/-- A warning. -/
structure Alert where
  /-- The words for where it was found. -/
  place : String := ""
  /-- What it is about. -/
  issue : Issue

namespace Alert

/-- The words of a warning. -/
def text (a : Alert) : String := a.place ++ a.issue.text

/-- A warning as part of a larger place. -/
def within (place : String) (a : Alert) : Alert := { a with place := place ++ a.place }

@[simp]
theorem text_mk (issue : Issue) : ({ issue } : Alert).text = issue.text := String.empty_append

@[simp]
theorem text_within (place : String) (a : Alert) : (a.within place).text = place ++ a.text :=
  String.append_assoc

end Alert

/-! ## The alerts of definitions

Where an alert depends on a kind, the kind comes with the proof that it is the one of the
definition, for the grounds of the alert. -/

/-- A warning if there are grounds for it. -/
def alertIf (condition : Bool) (issue : condition = true → Issue) : List Alert :=
  if h : condition = true then [{ issue := issue h }] else []

/-- The alerts of a condition of a kind. -/
def Condition.alertsOf (c : Condition) (kind : Word ConditionKind) (h : c.kind = kind) :
    List Alert :=
  match kind with
  | .other word _ => [{ issue := .unknownCondition c word h }]
  | .known _ => []

/-- The alerts of a condition. -/
def Condition.alerts (c : Condition) : List Alert := c.alertsOf c.kind rfl

/-- The alerts of a value source of a kind, for an effect that it belongs to. -/
def ValueSource.alertsOf (s : ValueSource) (name : String) (e : Effect) (kind : Word SourceKind)
    (h : s.kind = kind) : List Alert :=
  match kind with
  | .other word _ => [{ issue := .unknownSource name s word h }]
  | .known .randomRange =>
    alertIf (s.least > s.greatest) fun _ =>
      .remark s!"{name}: random_range min {s.least} > max {s.greatest}"
  | .known .targetGoldValue =>
    alertIf (e.target = .none) fun htarget =>
      .worthlessSource name e s h (of_decide_eq_true htarget)
  | .known _ => []

/-- The alerts of a value source. -/
def ValueSource.alerts (s : ValueSource) (name : String) (e : Effect) : List Alert :=
  s.alertsOf name e s.kind rfl

namespace Effect

/-- The alerts for the parameters that belong to a known kind. -/
def alertsOfKnown (e : Effect) (catalog : Catalog) (kind : EffectKind) (h : e.kind = .known kind) :
    List Alert :=
  let cardId := e.cardId.getD ""
  match kind with
  | .removeCardFromDeck =>
    let name := Vocabulary.name EffectKind.removeCardFromDeck
    alertIf (cardId ≠ "" && !catalog.hasCard cardId) fun _ =>
      .remark s!"{name}: references unknown card '{cardId}'"
  | .permanentUpgrade =>
    alertIf (e.target ∉ [.handTreasure, .handCard, .allHandTreasure]) fun htarget =>
      .idleUpgrade e h (of_decide_eq_true htarget)
  | _ => []

/-- The alerts of an effect of a kind. -/
def alertsOf (e : Effect) (catalog : Catalog) (kind : Word EffectKind) (h : e.kind = kind) :
    List Alert :=
  match kind with
  | .other word _ => [{ issue := .unknownEffect e word h }]
  | .known kind =>
    e.alertsOfKnown catalog kind h ++ e.sources.flatMap (·.alerts (Vocabulary.name kind) e)

/-- The alerts of an effect. -/
def alerts (e : Effect) (catalog : Catalog) : List Alert := e.alertsOf catalog e.kind rfl

end Effect

/-- The alerts of a group. -/
def Group.alerts (g : Group) (catalog : Catalog) : List Alert :=
  g.conditions.flatMap (·.alerts)
    ++ alertIf (!g.elseEffects.isEmpty && g.conditions.isEmpty) (fun h =>
      .deadElse g (List.isEmpty_iff.mp (Bool.and_eq_true_iff.mp h).2))
    ++ (g.effects ++ g.elseEffects).flatMap (·.alerts catalog)

/-- The alerts of a card. -/
def CardDefinition.alerts (d : CardDefinition) (catalog : Catalog) : List Alert :=
  alertIf (d.isAction && d.effects.isEmpty)
      (fun _ => .remark s!"Action card '{d.id}' has no effects")
    ++ alertIf (!d.isAction && !d.effects.isEmpty) (fun h =>
      .idleEffects d (Bool.not_eq_true' _ ▸ (Bool.and_eq_true_iff.mp h).1))
    ++ (d.effects.flatMap (·.alerts catalog)).map (·.within s!"Card '{d.id}': ")

/-- The alerts of an option of a choice event. -/
def Choice.alerts (c : Choice) (catalog : Catalog) : List Alert :=
  c.requirements.flatMap (·.alerts)
    ++ (c.effects.flatMap (·.alerts catalog)).map (·.within s!"choice '{c.id}': ")

/-- The alerts of an event. -/
def EventDefinition.alerts (e : EventDefinition) (catalog : Catalog) : List Alert :=
  (e.triggers.flatMap (·.alerts)
    ++ e.effects.flatMap (·.alerts catalog)
    ++ e.choices.flatMap (·.alerts catalog)
    ++ alertIf (e.effects.isEmpty && e.choices.isEmpty)
      (fun _ => .remark s!"Event '{e.id}' has neither effects nor choices")
    ++ alertIf (!e.effects.isEmpty && !e.choices.isEmpty) (fun h =>
      .ignoredEffects e (Bool.and_eq_true_iff.mp h).2)).map (·.within s!"Event '{e.id}': ")

/-- The alerts of a catalog. -/
def Catalog.alerts (c : Catalog) : List Alert :=
  c.cards.flatMap (·.alerts c)
    ++ c.events.flatMap (·.alerts c)
    ++ alertIf c.cards.isEmpty (fun _ => .remark "No cards defined")

/-! ## Their words -/

namespace Findings

/-- The warnings of a check are the words of some alerts. -/
def Raises (f : Findings) (alerts : List Alert) : Prop := f.warnings = alerts.map (·.text)

namespace Raises

variable {f g : Findings} {as bs : List Alert}

theorem append (hf : f.Raises as) (hg : g.Raises bs) : (f ++ g).Raises (as ++ bs) := by
  rw [Raises, List.map_append, ← hf, ← hg]
  rfl

/-- Errors are no warnings. -/
theorem errors (hf : f.Raises []) (hg : g.Raises as) : (f ++ g).Raises as := hf.append hg

theorem warningIf {condition : Bool} {issue : condition = true → Issue} {text : String}
    (h : ∀ hcondition, (issue hcondition).text = text) :
    (warningIf condition text).Raises (alertIf condition issue) := by
  cases condition with
  | false => rfl
  | true => simp [Raises, Findings.warningIf, alertIf, h]

/-- A warning that needs no further condition. -/
theorem always (issue : Issue) : (Findings.warningIf true issue.text).Raises [{ issue }] := by
  rw [Raises, List.map_singleton, Alert.text_mk]
  rfl

theorem all {check : α → Findings} {alerts : α → List Alert} (h : ∀ a, (check a).Raises (alerts a))
    (items : List α) : (all check items).Raises (items.flatMap alerts) := by
  rw [Raises, List.map_flatMap]
  exact congrArg (List.flatMap · items) (funext h)

theorem within (place : String) (h : f.Raises as) :
    (f.within place).Raises (as.map (·.within place)) := by
  rw [Raises, List.map_map, Findings.within, h, List.map_map]
  exact List.map_congr_left fun a _ => (a.text_within place).symm

end Raises

end Findings

open Findings (Raises)

theorem Condition.raises_check (c : Condition) : c.check.Raises c.alerts := by
  -- The alerts carry the proof of the kind, so the kind is named before the cases are split.
  have hof : ∀ kind (h : c.kind = kind), c.check.Raises (c.alertsOf kind h) := by
    intro kind h
    rw [check, h]
    cases kind with
    | other word _ => exact .always (.unknownCondition c word h)
    | known kind => rfl
  exact hof c.kind rfl

theorem ValueSource.raises_check (s : ValueSource) (name : String) (e : Effect) :
    (s.check name e.target).Raises (s.alerts name e) := by
  have hof : ∀ kind (h : s.kind = kind),
      (s.check name e.target).Raises (s.alertsOf name e kind h) := by
    intro kind h
    rw [check, h]
    rcases kind with kind | word
    · cases kind
      case randomRange | targetGoldValue => exact .warningIf fun _ => rfl
      all_goals rfl
    · exact .always (.unknownSource name s word h)
  exact hof s.kind rfl

namespace Effect

theorem raises_checkKind (e : Effect) (catalog : Catalog) {kind : EffectKind}
    (h : e.kind = .known kind) :
    (e.checkKind kind catalog).Raises (e.alertsOfKnown catalog kind h) := by
  cases kind
  case removeCardFromDeck | permanentUpgrade => exact .warningIf fun _ => rfl
  case addCardToDeck =>
    unfold checkKind
    dsimp only
    split <;> rfl
  all_goals rfl

theorem raises_check (e : Effect) (catalog : Catalog) :
    (e.check catalog).Raises (e.alerts catalog) := by
  have hof : ∀ kind (h : e.kind = kind), (e.check catalog).Raises (e.alertsOf catalog kind h) := by
    intro kind h
    rw [check, h]
    cases kind with
    | other word _ => exact .always (.unknownEffect e word h)
    | known kind =>
      exact .append (.errors rfl (e.raises_checkKind catalog h))
        (.all (fun s => s.raises_check (Vocabulary.name kind) e) e.sources)
  exact hof e.kind rfl

end Effect

theorem Group.raises_check (g : Group) (catalog : Catalog) :
    (g.check catalog).Raises (g.alerts catalog) :=
  .append (.append (.all Condition.raises_check _) (.warningIf fun _ => rfl))
    (.all (fun e => e.raises_check catalog) _)

theorem CardDefinition.raises_check (d : CardDefinition) (catalog : Catalog) :
    (d.check catalog).Raises (d.alerts catalog) :=
  .append (.append (.errors rfl (.warningIf fun _ => rfl)) (.warningIf fun _ => rfl))
    (.within _ (.all (fun g => g.raises_check catalog) _))

/-- The options of an event raise the alerts of each, whatever ids were there before. -/
theorem Choice.raises_checkAll (catalog : Catalog) (seen : List String) (choices : List Choice) :
    (checkAll catalog seen choices).Raises (choices.flatMap (·.alerts catalog)) := by
  induction choices generalizing seen with
  | nil => rfl
  | cons c rest ih =>
    exact .append (.append (.errors rfl (.all Condition.raises_check _))
      (.within _ (.all (fun g => g.raises_check catalog) _))) (ih (c.id :: seen))

theorem EventDefinition.raises_check (e : EventDefinition) (catalog : Catalog) :
    (e.check catalog).Raises (e.alerts catalog) :=
  .within _ (.append (.append (.append (.append
      (.errors rfl (.all Condition.raises_check _))
      (.all (fun g => g.raises_check catalog) _))
      (Choice.raises_checkAll catalog [] _))
      (.warningIf fun _ => rfl))
      (.warningIf fun _ => rfl))

/-- The warnings of a catalog are the words of its alerts. -/
theorem Catalog.raises_check (c : Catalog) : c.check.Raises c.alerts :=
  .append (.append (.all (fun d => d.raises_check c) _) (.all (fun e => e.raises_check c) _))
    (.warningIf fun _ => rfl)

end Treasury
