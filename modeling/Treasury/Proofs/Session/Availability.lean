import Mathlib.Data.List.Nodup
import Treasury.Proofs.Session.Atomicity
import Treasury.Starter.Cards

/-!
# Asking about events

The player may ask whether an event may happen and which of its options may be chosen. Triggering
the event does not look at these answers: it evaluates the conditions and looks the choice up again.
Both come to the same while the player is free to act, whatever the conditions and whatever happened
before, as long as the options of the event have different ids.

* `SessionError.isUnavailable`: the errors by which an event does not happen.
* `Session.groupsOf_eq_ok_iff`: when an event has something to do, and what.
* `Session.Announced`: what the player is told lets the event happen with a choice.
* `Session.Happens`: triggering an event is not turned down.
* `Session.trigger_agrees_of_active`: an event happens as announced, with the effects of its choice.
-/

namespace Treasury

/-- Whether an error says that an event does not happen. -/
def SessionError.isUnavailable : SessionError → Bool
  | .noSuchEvent _ | .notTriggered _ | .choiceNeeded _ | .noSuchChoice .. | .choiceClosed _ => true
  | _ => false

namespace EventDefinition

/-- The groups that an event runs with a choice: its own if it has no options, and else those of an
option of that id. -/
def Runs (e : EventDefinition) (choiceId : Option String) (groups : List Group) : Prop :=
  e.choices = [] ∧ groups = e.effects ∨
    ∃ c ∈ e.choices, choiceId = some c.id ∧ groups = c.effects

/-- Where ids differ, an option is found by its own. -/
theorem choice?_eq_some_iff {e : EventDefinition} (hids : (e.choices.map (·.id)).Nodup)
    {id : String} {c : Choice} : e.choice? id = some c ↔ c ∈ e.choices ∧ c.id = id := by
  unfold choice?
  constructor
  · intro h
    exact ⟨List.mem_of_find?_eq_some h, by simpa using List.find?_some h⟩
  · rintro ⟨hc, rfl⟩
    have hsome : (e.choices.find? (·.id = c.id)).isSome = true :=
      List.find?_isSome.mpr ⟨c, hc, decide_eq_true rfl⟩
    obtain ⟨d, hd⟩ := Option.isSome_iff_exists.mp hsome
    have hid : d.id = c.id := by simpa using List.find?_some hd
    rw [hd, List.inj_on_of_nodup_map hids (List.mem_of_find?_eq_some hd) hc hid]

end EventDefinition

namespace Session

variable {r : Rules} {s : Session} {e : EventDefinition} {eventId : String}
  {choiceId : Option String}

/-! ## Asking -/

theorem exec_available (r : Rules) (e : EventDefinition) (s : Session) :
    exec (available r e) s = (.ok (s.meets r e.triggers), s) := rfl

/-- Asking for the options of an event leaves the session. -/
theorem exec_choices_snd (r : Rules) (eventId : String) (s : Session) :
    (exec (choices r eventId) s).2 = s := by
  unfold choices
  rw [exec_get_bind]
  rcases event r eventId with err | e
  · rfl
  · rfl

theorem exec_choices (he : r.catalog.event? eventId = some e) (s : Session) :
    exec (choices r eventId) s = (.ok (e.choices.map fun c =>
      { id := c.id, text := c.text, canSelect := s.meets r c.requirements }), s) := by
  unfold choices event
  rw [exec_get_bind, he]
  rfl

/-- What the player is told: the event may happen, and it has no options or the given choice is the
id of one that may be chosen. -/
def Announced (r : Rules) (s : Session) (e : EventDefinition) (eventId : String)
    (choiceId : Option String) : Prop :=
  (exec (available r e) s).1 = .ok true ∧
    (e.choices = [] ∨ ∃ infos, (exec (choices r eventId) s).1 = .ok infos ∧
      ∃ info ∈ infos, choiceId = some info.id ∧ info.canSelect = true)

/-- The announcement in terms of conditions: the triggers hold and, if there are options, so do the
requirements of one of the given id. -/
theorem announced_iff (he : r.catalog.event? eventId = some e) :
    s.Announced r e eventId choiceId ↔ s.meets r e.triggers = true ∧
      (e.choices = [] ∨
        ∃ c ∈ e.choices, choiceId = some c.id ∧ s.meets r c.requirements = true) := by
  unfold Announced
  rw [exec_available, exec_choices he]
  simp only [Except.ok.injEq, exists_eq_left', List.mem_map, exists_exists_and_eq_and]

/-! ## Triggering -/

/-- An event has something to do exactly if its triggers hold and, if it has options, so do the
requirements of the one that its choice finds. -/
theorem groupsOf_eq_ok_iff (he : r.catalog.event? eventId = some e) {groups : List Group} :
    s.groupsOf r eventId choiceId = .ok groups ↔ s.meets r e.triggers = true ∧
      (e.choices = [] ∧ e.effects = groups ∨ ∃ id c, choiceId = some id ∧
        e.choice? id = some c ∧ s.meets r c.requirements = true ∧ c.effects = groups) := by
  unfold groupsOf event
  rw [he]
  dsimp only [bind, Except.bind]
  -- The checks are made in this order, and the first that is not met ends it.
  cases htriggers : s.meets r e.triggers with
  | false => simp [throw, throwThe, MonadExceptOf.throw]
  | true =>
    cases hchoices : e.choices with
    | nil =>
      simp [EventDefinition.hasChoices, EventDefinition.choice?, hchoices, pure, Except.pure]
    | cons first rest =>
      have hhas : e.hasChoices = true := by simp [EventDefinition.hasChoices, hchoices]
      cases choiceId with
      | none => simp [hhas, throw, throwThe, MonadExceptOf.throw]
      | some id =>
        cases hc : e.choice? id with
        | none => simp [hhas, hc, throw, throwThe, MonadExceptOf.throw]
        | some c =>
          cases hmet : s.meets r c.requirements with
          | false => simp [hhas, hc, hmet, throw, throwThe, MonadExceptOf.throw]
          | true => simp [hhas, hc, hmet, pure, Except.pure]

/-- Where an event has nothing to do, the error says so. -/
theorem isUnavailable_of_groupsOf {err : SessionError}
    (h : s.groupsOf r eventId choiceId = .error err) : err.isUnavailable = true := by
  unfold groupsOf event at h
  cases hevent : r.catalog.event? eventId with
  | none =>
    rw [hevent] at h
    cases h
    rfl
  | some e =>
    rw [hevent] at h
    dsimp only [bind, Except.bind] at h
    -- Every branch that fails names its own error.
    split at h
    · cases h
      rfl
    · split at h
      · cases h
      · split at h
        · cases h
          rfl
        · split at h
          · cases h
            rfl
          · split at h <;> cases h
            rfl

/-- While the player is free to act, triggering an event comes down to its groups. -/
theorem exec_trigger_of_active (h : s.status = .active) :
    exec (trigger r eventId choiceId) s = match s.groupsOf r eventId choiceId with
      | .error err => (.error err, s)
      | .ok groups => exec (engine r fun tell => Engine.start tell r groups none) s := by
  unfold trigger ready
  rw [bind_assoc, exec_get_bind, h]
  change exec (get >>= fun s => match s.groupsOf r eventId choiceId with
    | .error e => throw e
    | .ok groups => engine r fun tell => Engine.start tell r groups none) s = _
  rw [exec_get_bind]
  rcases s.groupsOf r eventId choiceId with err | groups
  · rfl
  · rfl

/-- The engine does not say that an event does not happen. -/
theorem not_isUnavailable_of_engine {call : Engine.Tell → Run Outcome} {err : SessionError}
    (h : (exec (engine r call) s).1 = .error err) : err.isUnavailable = false := by
  rw [exec_engine] at h
  rcases hdone : s.machine.run r call with ⟨e | o, m⟩ <;> rw [hdone] at h
  · cases h
    rfl
  · cases h

/-- An event that is triggered is not turned down as one that does not happen. The activation that
it starts may fail. -/
def Happens (r : Rules) (s : Session) (eventId : String) (choiceId : Option String) : Prop :=
  ∀ err, (exec (trigger r eventId choiceId) s).1 = .error err → err.isUnavailable = false

theorem happens_iff_of_active (h : s.status = .active) :
    s.Happens r eventId choiceId ↔ ∃ groups, s.groupsOf r eventId choiceId = .ok groups := by
  unfold Happens
  rw [exec_trigger_of_active h]
  rcases hgroups : s.groupsOf r eventId choiceId with err | groups
  · refine iff_of_false (fun h => ?_) fun ⟨_, h⟩ => nomatch h
    cases (isUnavailable_of_groupsOf hgroups).symm.trans (h err rfl)
  · exact iff_of_true (fun err herr => not_isUnavailable_of_engine herr) ⟨groups, rfl⟩

/-- Where the ids of the options differ, an event is announced exactly if it has something to do. -/
theorem announced_iff_groupsOf (he : r.catalog.event? eventId = some e)
    (hids : (e.choices.map (·.id)).Nodup) :
    s.Announced r e eventId choiceId ↔ ∃ groups, s.groupsOf r eventId choiceId = .ok groups := by
  rw [announced_iff he]
  simp only [groupsOf_eq_ok_iff he, EventDefinition.choice?_eq_some_iff hids]
  constructor
  · rintro ⟨htriggers, hnone | ⟨c, hc, hid, hmet⟩⟩
    · exact ⟨e.effects, htriggers, .inl ⟨hnone, rfl⟩⟩
    · exact ⟨c.effects, htriggers, .inr ⟨c.id, c, hid, ⟨hc, rfl⟩, hmet, rfl⟩⟩
  · rintro ⟨groups, htriggers, ⟨hnone, -⟩ | ⟨id, c, hid, ⟨hc, rfl⟩, hmet, -⟩⟩
    · exact ⟨htriggers, .inl hnone⟩
    · exact ⟨htriggers, .inr ⟨c, hc, hid, hmet⟩⟩

/-- An event happens as announced. While the player is free to act, and the options of the event
have different ids, triggering it is turned down unless the player is told that it may happen and,
if it has options, that the given one may be chosen. An activation of the groups of that option, or
of the event itself if it has none, is then all that triggering comes to. Asking leaves every
session as it is, so it may come first. -/
theorem trigger_agrees_of_active (hactive : s.status = .active)
    (he : r.catalog.event? eventId = some e) (hids : (e.choices.map (·.id)).Nodup)
    (choiceId : Option String) :
    (s.Happens r eventId choiceId ↔ s.Announced r e eventId choiceId) ∧
      (s.Happens r eventId choiceId →
        ∃ groups, e.Runs choiceId groups ∧ exec (trigger r eventId choiceId) s =
          exec (engine r fun tell => Engine.start tell r groups none) s) ∧
      ∀ s' : Session, (exec (available r e) s').2 = s' ∧ (exec (choices r eventId) s').2 = s' ∧
        exec (available r e >>= fun _ => choices r eventId >>= fun _ =>
            trigger r eventId choiceId) s' =
          exec (trigger r eventId choiceId) s' := by
  have hhappens : s.Happens r eventId choiceId ↔ _ := happens_iff_of_active hactive
  refine ⟨hhappens.trans (announced_iff_groupsOf he hids).symm, fun h => ?_, fun s' => ?_⟩
  · obtain ⟨groups, hgroups⟩ := hhappens.mp h
    refine ⟨groups, ?_, by rw [exec_trigger_of_active hactive, hgroups]⟩
    -- The groups are those of the event without choices, or of the choice that is named.
    obtain ⟨-, ⟨hnone, rfl⟩ | ⟨id, c, hid, hc, -, rfl⟩⟩ := (groupsOf_eq_ok_iff he).mp hgroups
    · exact .inl ⟨hnone, rfl⟩
    · obtain ⟨hmem, rfl⟩ := (EventDefinition.choice?_eq_some_iff hids).mp hc
      exact .inr ⟨c, hmem, hid, rfl⟩
  · refine ⟨rfl, exec_choices_snd r eventId s', ?_⟩
    rw [exec_bind, exec_available]
    dsimp only
    rw [exec_bind, exec_choices he]

/-- Whoever has a single unit may leave the altar, and is told so, but may not sacrifice it. -/
theorem trigger_agrees_of_altar :
    let r : Rules := { catalog := Starter.catalog }
    let altar := Starter.mysteriousAltar
    let s := (({} : Store).create none (some
      { residents := [{ unitId := "unit_1", name := "Pawn" }] })).1
    s.status = .active ∧ r.catalog.event? altar.id = some altar ∧
      (altar.choices.map (·.id)).Nodup ∧ s.Announced r altar altar.id (some "leave") ∧
      (∃ groups, altar.Runs (some "leave") groups ∧ exec (trigger r altar.id (some "leave")) s =
        exec (engine r fun tell => Engine.start tell r groups none) s) ∧
      ¬ s.Announced r altar altar.id (some "sacrifice") := by
  intro r altar s
  have hactive : s.status = .active := rfl
  have he : r.catalog.event? altar.id = some altar := by decide +kernel
  have hids : (altar.choices.map (·.id)).Nodup := by decide
  have hagrees := trigger_agrees_of_active hactive he hids (some "leave")
  have hleave : s.Announced r altar altar.id (some "leave") := by
    rw [announced_iff he]
    decide +kernel
  refine ⟨hactive, he, hids, hleave, hagrees.2.1 (hagrees.1.mpr hleave), ?_⟩
  rw [announced_iff he]
  decide +kernel

end Session

end Treasury
