import Treasury.Proofs.Execution.Footprint
import Treasury.Proofs.Execution.Household
import Treasury.Proofs.Game.Ids

/-!
# What effects schedule

Four kinds of effects write a record for later turns, and all others leave the records alone. The
records are only ever added to, and each has an id that the game makes for it.

* `GameState.Issued`: the ids that a game has made.
* `Assignment.records`: the records that effects write one after another. Their ids are numbered on
  from those that were made before (`Assignment.map_effectId_records`), so they are new and differ.
* `Table.Schedules`: all that effects do to the records is to add theirs.
  `Assignment.schedules_execute` says so of one effect.
-/

namespace Treasury

/-! ## Ids -/

/-- The id of the `n`-th scheduled effect. -/
def effectNumbered (n : Nat) : String := s!"effect_{n}"

theorem toList_effectNumbered (n : Nat) :
    (effectNumbered n).toList = "effect_".toList ++ Nat.toDigits 10 n := by
  simp [effectNumbered, toString, Nat.toList_repr]

/-- Ids made from different numbers differ. -/
theorem effectNumbered_injective : Function.Injective effectNumbered := by
  intro m n h
  exact number_inj "effect_" h

/-- The ids that a game may have made so far, of cards, of units and of scheduled effects. Its
counters say up to which number it made some. -/
inductive GameState.Issued (g : GameState) : String → Prop
  /-- A copy was made with it, of whichever card. -/
  | card (cardId : String) {n : Nat} (h : n < g.instancesMade) : Issued g (numbered cardId (n + 1))
  /-- A unit was made with it. -/
  | unit {n : Nat} (h : n < g.unitsMade) : Issued g (unitNumbered (n + 1))
  /-- An effect was scheduled with it. -/
  | effect {n : Nat} (h : n < g.effectsMade) : Issued g (effectNumbered (n + 1))

namespace GameState

variable {g : GameState}

/-- The next id for a scheduled effect is one that the game has not made, whatever for. -/
theorem not_issued_effectNumbered {n : Nat} (hn : g.effectsMade < n) :
    ¬ g.Issued (effectNumbered n) := by
  intro h
  generalize hid : effectNumbered n = id at h
  cases h with
  | card cardId hk =>
    -- Ids of cards have a number sign, and the others have none.
    have hsign : '#' ∈ (effectNumbered n).toList := by
      rw [hid, toList_numbered]
      exact List.mem_append_right _ List.mem_cons_self
    rw [toList_effectNumbered] at hsign
    rcases List.mem_append.mp hsign with hsign | hdigit
    · exact absurd hsign (by decide)
    · exact absurd (Nat.isDigit_of_mem_toDigits (by decide) (by decide) hdigit) (by decide)
  | @unit k hk =>
    -- Those of units and of scheduled effects start with different letters.
    have hlists := congrArg (List.head? ∘ String.toList) hid
    simp [toList_effectNumbered, unitNumbered, toString] at hlists
  | @effect k hk =>
    have := effectNumbered_injective hid
    omega

end GameState

/-! ## Records -/

/-- What effects of a kind schedule: what is done later, and for how many turns unless the
definition says so. -/
def EffectKind.scheduling? : EffectKind → Option (ScheduleKind × Int)
  | .delayedGold => some (.delayedGold, 1)
  | .persistentGold => some (.goldPerTurn, 1)
  | .persistentMaintenance => some (.maintenanceIncrease, 1)
  | .maintenanceModifier => some (.maintenanceIncrease, 3)
  | _ => none

namespace Assignment

/-- A record of an effect, with the id of a number. -/
def record (a : Assignment) (n : Nat) (later : ScheduleKind) (turns : Int) : Scheduled where
  effectId := effectNumbered n
  kind := later
  value := a.magnitude
  remainingTurns := if a.effect.duration > 0 then a.effect.duration else turns

/-- The record that an effect writes, if it is one for later turns. -/
def record? (a : Assignment) (n : Nat) : Option Scheduled :=
  match a.effect.kind with
  | .known kind => kind.scheduling?.map fun (later, turns) => a.record n later turns
  | .other .. => none

/-- The records that effects write one after another, where some ids were made before. -/
def records : Nat → List Assignment → List Scheduled
  | _, [] => []
  | made, a :: rest =>
    match a.record? (made + 1) with
    | some s => s :: records (made + 1) rest
    | none => records made rest

variable {a : Assignment} {as : List Assignment} {made : Nat} {s : Scheduled}

theorem record?_of_known {kind : EffectKind} (h : a.effect.kind = .known kind) (n : Nat) :
    a.record? n = kind.scheduling?.map fun (later, turns) => a.record n later turns := by
  rw [record?, h]

theorem record?_of_unknown {word : String}
    {hword : Vocabulary.ofName? (α := EffectKind) word = none}
    (h : a.effect.kind = .other word hword) (n : Nat) : a.record? n = none := by
  rw [record?, h]

theorem records_singleton (made : Nat) (a : Assignment) :
    records made [a] = (a.record? (made + 1)).toList := by
  unfold records
  cases a.record? (made + 1) with
  | some s => rfl
  | none => rfl

theorem records_append (made : Nat) (as bs : List Assignment) :
    records made (as ++ bs) = records made as ++ records (made + (records made as).length) bs := by
  induction as generalizing made with
  | nil => rfl
  | cons a rest ih =>
    rw [List.cons_append, records, records]
    cases a.record? (made + 1) with
    | some s =>
      -- The record takes a number, so the numbers of the second list start one later.
      dsimp only
      rw [ih, List.cons_append, List.length_cons, Nat.add_right_comm, Nat.add_assoc]
    | none => exact ih made

/-- What an effect writes is a record of it for the turns of its definition, or else as many as its
kind says. -/
theorem eq_record_of_mem_record? {n : Nat} (h : s ∈ a.record? n) :
    ∃ kind later turns, a.effect.kind = .known kind ∧
      kind.scheduling? = some (later, turns) ∧ s = a.record n later turns := by
  rcases hkind : a.effect.kind with kind | word
  · rw [record?_of_known hkind] at h
    obtain ⟨⟨later, turns⟩, hscheduling, rfl⟩ := Option.map_eq_some_iff.mp h
    exact ⟨kind, later, turns, rfl, hscheduling, rfl⟩
  · rw [record?_of_unknown hkind] at h
    cases h

/-- The ids are numbered on from those that were made before. -/
theorem map_effectId_records (made : Nat) (as : List Assignment) :
    (records made as).map (·.effectId) =
      (List.range' (made + 1) (records made as).length).map effectNumbered := by
  induction as generalizing made with
  | nil => rfl
  | cons a rest ih =>
    unfold records
    cases hrecord : a.record? (made + 1) with
    | some s =>
      -- Of the record only its id is of interest, and that is numbered whatever the record is for.
      obtain ⟨-, later, turns, -, -, rfl⟩ := eq_record_of_mem_record? hrecord
      simp only [List.map_cons, List.length_cons, List.range'_succ, ih]
      rfl
    | none => exact ih made

/-- The ids differ from one another. -/
theorem nodup_map_effectId_records (made : Nat) (as : List Assignment) :
    ((records made as).map (·.effectId)).Nodup := by
  rw [map_effectId_records]
  exact List.Nodup.map effectNumbered_injective (List.nodup_range' 1)

/-- The ids have numbers above those made before, up to those made then. -/
theorem exists_number_of_mem_records (h : s ∈ records made as) :
    ∃ n, made < n ∧ n ≤ made + (records made as).length ∧ s.effectId = effectNumbered n := by
  have hid := List.mem_map_of_mem (f := (·.effectId)) h
  rw [map_effectId_records] at hid
  obtain ⟨n, hn, heq⟩ := List.mem_map.mp hid
  rw [List.mem_range'_1] at hn
  exact ⟨n, by omega, by omega, heq.symm⟩

/-- Every record is one of some effect. -/
theorem exists_of_mem_records (h : s ∈ records made as) : ∃ a ∈ as, ∃ n, s ∈ a.record? n := by
  induction as generalizing made with
  | nil => cases h
  | cons a rest ih =>
    have hrest {made : Nat} (h : s ∈ records made rest) :
        ∃ b ∈ a :: rest, ∃ n, s ∈ b.record? n := by
      obtain ⟨b, hb, hn⟩ := ih h
      exact ⟨b, List.mem_cons_of_mem a hb, hn⟩
    unfold records at h
    -- An effect that writes no record leaves its number to the next one.
    cases hrecord : a.record? (made + 1) with
    | some first =>
      rw [hrecord] at h
      rcases List.mem_cons.mp h with rfl | h
      · exact ⟨a, List.mem_cons_self, made + 1, hrecord⟩
      · exact hrest h
    | none =>
      rw [hrecord] at h
      exact hrest h

theorem one_le_of_scheduling? {kind : EffectKind} {later : ScheduleKind} {turns : Int}
    (h : kind.scheduling? = some (later, turns)) : 1 ≤ turns := by
  cases kind <;> cases h <;> decide

/-- Every record is for one turn at least. -/
theorem one_le_remainingTurns_of_mem_records (h : s ∈ records made as) : 1 ≤ s.remainingTurns := by
  obtain ⟨a, -, n, hs⟩ := exists_of_mem_records h
  obtain ⟨kind, later, turns, -, hscheduling, rfl⟩ := eq_record_of_mem_record? hs
  have hturns := one_le_of_scheduling? hscheduling
  unfold record
  dsimp only
  split <;> omega

end Assignment

/-! ## What effects do to the records -/

open Assignment (records)

/-- All that some effects did to the records is to add theirs, with ids made for them. -/
structure Table.Schedules (as : List Assignment) (t u : Table) : Prop where
  /-- The records are those before and then those of the effects. -/
  scheduled_eq : u.game.scheduled = t.game.scheduled ++ records t.game.effectsMade as
  /-- As many ids were made as there are records more. -/
  effectsMade_eq : u.game.effectsMade =
    t.game.effectsMade + (records t.game.effectsMade as).length

namespace Table.Schedules

variable {as bs : List Assignment} {t u v : Table}

/-- Where the records are left alone, nothing is scheduled. -/
theorem of_same (hscheduled : Part.scheduled.Same t u) (hnumbers : Part.effectNumbers.Same t u) :
    Schedules [] t u where
  scheduled_eq := hscheduled.trans (List.append_nil _).symm
  effectsMade_eq := hnumbers

theorem trans (h : Schedules as t u) (k : Schedules bs u v) : Schedules (as ++ bs) t v where
  scheduled_eq := by
    rw [k.scheduled_eq, h.scheduled_eq, h.effectsMade_eq, Assignment.records_append,
      List.append_assoc]
  effectsMade_eq := by
    rw [k.effectsMade_eq, h.effectsMade_eq, Assignment.records_append, List.length_append,
      Nat.add_assoc]

/-- Where an effect writes no record, the records have to be left alone. -/
theorem of_record?_eq_none {a : Assignment} (ha : a.record? (t.game.effectsMade + 1) = none)
    (hscheduled : Part.scheduled.Same t u) (hnumbers : Part.effectNumbers.Same t u) :
    Schedules [a] t u := by
  have hrecords : records t.game.effectsMade [a] = [] := by
    rw [Assignment.records_singleton, ha]
    rfl
  constructor
  · rw [hrecords]
    exact hscheduled.trans (List.append_nil _).symm
  · rw [hrecords]
    exact hnumbers

/-- Throwing dice schedules nothing. -/
theorem of_rolled (h : t.Rolled u) : Schedules [] t u := by
  obtain ⟨dice, rfl⟩ := h
  exact of_same rfl rfl

/-- The ids of new records were not made before, and are made then. -/
theorem issued (h : Schedules as t u) {s : Scheduled} (hs : s ∈ records t.game.effectsMade as) :
    ¬ t.game.Issued s.effectId ∧ u.game.Issued s.effectId := by
  obtain ⟨n, hlow, hhigh, hid⟩ := Assignment.exists_number_of_mem_records hs
  rw [hid]
  refine ⟨GameState.not_issued_effectNumbered hlow, ?_⟩
  obtain ⟨k, rfl⟩ : ∃ k, n = k + 1 := ⟨n - 1, by omega⟩
  exact .effect (by rw [h.effectsMade_eq]; omega)

end Table.Schedules

namespace Assignment

/-- Scheduling puts a record behind those that there are, with the next id. -/
theorem exec_schedule (a : Assignment) (later : ScheduleKind) (turns : Int) (t : Table) :
    (exec (a.schedule later turns) t).2 = { t with game := { t.game with
      effectsMade := t.game.effectsMade + 1
      scheduled := t.game.scheduled ++ [a.record (t.game.effectsMade + 1) later turns] } } := rfl

/-- An effect that writes a record does nothing else. -/
theorem executeKind_of_scheduling? {kind : EffectKind} {later : ScheduleKind} {turns : Int}
    (h : kind.scheduling? = some (later, turns)) (a : Assignment) (r : Rules) :
    a.executeKind r kind = a.schedule later turns := by
  cases kind <;> cases h <;> rfl

/-- Effects that write no record leave the records alone. -/
theorem not_mem_changedBy_of_scheduling? {kind : EffectKind} (h : kind.scheduling? = none) :
    kind ∉ Part.scheduled.changedBy := by
  cases kind <;> first | decide | cases h

/-- An effect writes its record if it is one for later turns, and else leaves the records alone. -/
theorem schedules_execute (a : Assignment) (r : Rules) (t : Table) :
    t.Schedules [a] (exec (a.execute r) t).2 := by
  rcases hkind : a.effect.kind with kind | word
  · have hrecord := record?_of_known hkind (t.game.effectsMade + 1)
    rw [execute_of_known hkind]
    rcases hscheduling : kind.scheduling? with _ | ⟨later, turns⟩ <;> rw [hscheduling] at hrecord
    · -- The footprint of the effect says that neither the records nor their ids are touched.
      have hnot := not_mem_changedBy_of_scheduling? hscheduling
      exact .of_record?_eq_none hrecord (.executeKind hnot a r t)
        (.executeKind (p := .effectNumbers) hnot a r t)
    · -- The effect is nothing else than scheduling, and that writes this one record.
      rw [executeKind_of_scheduling? hscheduling, exec_schedule]
      constructor <;> rw [records_singleton, hrecord] <;> rfl
  · rw [execute_of_unknown hkind]
    exact .of_record?_eq_none (record?_of_unknown hkind _) rfl rfl

end Assignment

end Treasury
