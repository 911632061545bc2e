import Treasury.Proofs.Definitions.Loading
import Treasury.Proofs.Definitions.Soundness

/-!
# Bounds of loaded definitions

Every number and word of a document goes through a rule of its own, nested in lists, options and
alternatives. What the rules grant is carried through the readers and then through the making of
definitions, so it holds at every position of what was loaded, and the checks that look for a
violation of it find none.

* `Word.Resolved`: a word is a member of its vocabulary wherever it names one.
* `Effect.InBounds` and its companions: numbers are in their ranges and kinds are resolved.
* `Document.Defines.inBounds`: the definitions of a document that is accepted are in bounds.
* `Catalog.Loaded`: catalogs that are built from documents alone.
* `Catalog.Loaded.inBounds`: all definitions of such a catalog are in bounds.
-/

namespace Treasury

/-! ## Words that name members -/

namespace Word

variable {α : Type} [Vocabulary α]

/-- The word is a member of its vocabulary if it names one. -/
def Resolved (w : Word α) : Prop := ∀ a, w.name = Vocabulary.name a → w = .known a

/-- Words are resolved if every member is found by its name. -/
theorem resolved (h : ∀ a : α, Vocabulary.ofName? (Vocabulary.name a) = some a) (w : Word α) :
    w.Resolved := by
  intro a ha
  cases w with
  | known b =>
    have hfound : Vocabulary.ofName? (Vocabulary.name b) = some a := (congrArg _ ha).trans (h a)
    rw [Option.some.inj ((h b).symm.trans hfound)]
  | other word hword =>
    have hfound : Vocabulary.ofName? word = some a := (congrArg _ ha).trans (h a)
    exact absurd (hword.symm.trans hfound) (Option.some_ne_none a).symm

end Word

theorem EffectKind.ofName?_name (kind : EffectKind) :
    Vocabulary.ofName? (Vocabulary.name kind) = some kind := by
  cases kind <;> decide +kernel

theorem ConditionKind.ofName?_name (kind : ConditionKind) :
    Vocabulary.ofName? (Vocabulary.name kind) = some kind := by
  cases kind <;> decide +kernel

theorem SourceKind.ofName?_name (kind : SourceKind) :
    Vocabulary.ofName? (Vocabulary.name kind) = some kind := by
  cases kind <;> decide +kernel

/-! ## Definitions in bounds -/

/-- The kind of a value source is resolved, and its multiplier is a number. -/
structure ValueSource.InBounds (s : ValueSource) : Prop where
  /-- The kind is resolved. -/
  kind : s.kind.Resolved
  /-- The multiplier is no infinity and no NaN. -/
  multiplier : s.multiplier.isFinite = true

/-- The numbers of an effect are in their ranges, and so are those of its sources. -/
structure Effect.InBounds (e : Effect) : Prop where
  /-- The kind is resolved. -/
  kind : e.kind.Resolved
  /-- The number of targets is not negative. -/
  maxTargets : 0 ≤ e.maxTargets
  /-- The duration is not negative. -/
  duration : 0 ≤ e.duration
  /-- The chance is a percentage. -/
  successChance : 0 ≤ e.successChance ∧ e.successChance ≤ 100
  /-- The grade to create, if there is one, is a place of the ladder. -/
  createGrade : ∀ n ∈ e.createGrade, 1 ≤ n ∧ n ≤ 7
  /-- All its sources are in bounds. -/
  sources : ∀ s ∈ e.sources, s.InBounds

/-- The conditions of a group are resolved, and its effects are in bounds on both sides. -/
structure Group.InBounds (g : Group) : Prop where
  /-- The kinds of the conditions are resolved. -/
  conditions : ∀ c ∈ g.conditions, c.kind.Resolved
  /-- The effects are in bounds, whether or not the conditions have to hold. -/
  effects : ∀ e ∈ g.effects ++ g.elseEffects, e.InBounds

/-- The grade of a card is one of the ladder, and its groups are in bounds. -/
structure CardDefinition.InBounds (d : CardDefinition) : Prop where
  /-- The grade, if there is one, is one of the ladder. -/
  grade : ∀ g ∈ d.grade, g ∈ Grade.all
  /-- The groups are in bounds. -/
  effects : ∀ g ∈ d.effects, g.InBounds

/-- The requirements of an option are resolved, and its groups are in bounds. -/
structure Choice.InBounds (c : Choice) : Prop where
  /-- The kinds of the requirements are resolved. -/
  requirements : ∀ r ∈ c.requirements, r.kind.Resolved
  /-- The groups are in bounds. -/
  effects : ∀ g ∈ c.effects, g.InBounds

/-- The triggers of an event are resolved, and its groups and options are in bounds. -/
structure EventDefinition.InBounds (e : EventDefinition) : Prop where
  /-- The kinds of the triggers are resolved. -/
  triggers : ∀ c ∈ e.triggers, c.kind.Resolved
  /-- The groups are in bounds. -/
  effects : ∀ g ∈ e.effects, g.InBounds
  /-- The options are in bounds. -/
  choices : ∀ c ∈ e.choices, c.InBounds

/-- All definitions of a catalog are in bounds. -/
structure Catalog.InBounds (c : Catalog) : Prop where
  /-- The cards are in bounds. -/
  cards : ∀ d ∈ c.cards, d.InBounds
  /-- The events are in bounds. -/
  events : ∀ e ∈ c.events, e.InBounds

/-- In a catalog in bounds every effect is, wherever it occurs. -/
theorem Catalog.InBounds.of_mem_effects {c : Catalog} (h : c.InBounds) {e : Effect}
    (he : e ∈ c.effects) : e.InBounds := by
  obtain ⟨g, hg, he⟩ := List.mem_flatMap.mp he
  refine Group.InBounds.effects ?_ e he
  rcases List.mem_append.mp hg with hg | hg
  · obtain ⟨d, hd, hg⟩ := List.mem_flatMap.mp hg
    exact (h.cards d hd).effects g hg
  · obtain ⟨ev, hev, hg⟩ := List.mem_flatMap.mp hg
    rcases List.mem_append.mp hg with hg | hg
    · exact (h.events ev hev).effects g hg
    · obtain ⟨choice, hchoice, hg⟩ := List.mem_flatMap.mp hg
      exact ((h.events ev hev).choices choice hchoice).effects g hg

/-! ## What is read without an error -/

/-- What is read satisfies a statement, unless there is an error. -/
def Provides {ε α : Type} (P : α → Prop) (x : Except ε α) : Prop := ∀ a, x = .ok a → P a

namespace Provides

variable {ε α β : Type} {P : β → Prop} {Q : α → Prop} {x : Except ε α} {f : α → Except ε β}

theorem ok {b : β} (h : P b) : Provides P (.ok b : Except ε β) := by
  rintro _ ⟨⟩
  exact h

theorem error {e : ε} : Provides P (.error e : Except ε β) := nofun

theorem trivial : Provides (fun _ => True) x := fun _ _ => True.intro

theorem bind (hx : Provides Q x) (hf : ∀ a, Q a → Provides P (f a)) : Provides P (x >>= f) := by
  rcases x with e | a
  · exact error
  · exact hf a (hx a rfl)

theorem mapM {as : List α} (h : ∀ a ∈ as, Provides P (f a)) :
    Provides (∀ b ∈ ·, P b) (as.mapM f) := by
  induction as with
  | nil => exact ok (List.forall_mem_nil P)
  | cons a rest ih =>
    rw [List.forall_mem_cons] at h
    rw [List.mapM_cons]
    refine h.1.bind fun b hb => (ih h.2).bind fun bs hbs => ok ?_
    exact List.forall_mem_cons.mpr ⟨hb, hbs⟩

theorem mapM_option {given : Option α} (h : ∀ a ∈ given, Provides P (f a)) :
    Provides (∀ b ∈ ·, P b) (given.mapM f) := by
  cases given with
  | none => exact ok fun b hb => nomatch hb
  | some a =>
    rw [Option.mapM_some]
    refine (h a rfl).bind fun b hb => ok fun c hc => ?_
    rwa [← Option.mem_some.mp hc]

end Provides

/-! ## Rules for single values -/

namespace Field

variable {α : Type} {P : α → Prop} {o : Members} {name : String}

theorem ensures_taken {rule : Json → Except Complaint α} (h : ∀ j, Provides P (rule j)) (j : Json) :
    (Document.taken rule j).Ensures P := by
  intro a ha
  unfold Document.taken at ha
  rcases hj : rule j with c | b
  · rw [hj] at ha
    cases ha
  · rw [hj] at ha
    cases ha
    exact h j a hj

theorem ensures_required {read : Json → Checked α} (h : ∀ j, (read j).Ensures P) :
    (required o name read).Ensures P := by
  intro a ha
  unfold required at ha
  split at ha
  · exact h _ a (Checked.under_eq_good_iff.mp ha)
  · cases ha

theorem provides_natural (j : Json) : Provides (0 ≤ ·) (natural j) := by
  refine .bind .trivial fun n _ => ?_
  split
  · exact .error
  · next hn => exact .ok (Int.not_lt.mp hn)

theorem provides_percent (j : Json) : Provides (fun n => 0 ≤ n ∧ n ≤ 100) (percent j) := by
  refine .bind (provides_natural j) fun n hn => ?_
  split
  · exact .error
  · next hle => exact .ok ⟨hn, Int.not_lt.mp hle⟩

theorem provides_finite (j : Json) : Provides (·.isFinite = true) (finite j) := by
  refine .bind .trivial fun x _ => ?_
  split
  · next hx => exact .ok hx
  · exact .error

theorem provides_anyWord [Vocabulary α]
    (h : ∀ a : α, Vocabulary.ofName? (Vocabulary.name a) = some a) (j : Json) :
    Provides Word.Resolved (anyWord α j) :=
  .bind .trivial fun word _ => .ok (Word.resolved h (.ofName word))

end Field

theorem Grade.provides_read (raw : Grade.Raw) :
    Provides (fun g : Grade => 1 ≤ g.place ∧ g.place ≤ 7) (Grade.read raw) := by
  intro g _
  exact ⟨by cases g <;> decide, g.place_le⟩

/-! ## Drafts become definitions in bounds -/

/-- The grade of a draft is read in the end, and a grade that was read has a place. -/
theorem EffectDraft.provides {d : EffectDraft} (h : d.effect.InBounds) :
    Provides Effect.InBounds d.read := by
  refine .bind (.mapM_option fun raw _ => Grade.provides_read raw) fun grade hgrade => .ok ?_
  refine { h with createGrade := fun n hn => ?_ }
  obtain ⟨g, hg, rfl⟩ := Option.mem_map.mp hn
  have hplace := hgrade g hg
  omega

theorem GroupDraft.provides {d : GroupDraft} (hconditions : ∀ c ∈ d.conditions, c.kind.Resolved)
    (h : ∀ e ∈ d.effects, Provides Effect.InBounds e.read)
    (helse : ∀ e ∈ d.elseEffects, Provides Effect.InBounds e.read) :
    Provides Group.InBounds d.read := by
  refine .bind (.mapM h) fun effects heffects => .bind (.mapM helse) fun others hothers => .ok ?_
  exact ⟨hconditions, List.forall_mem_append.mpr ⟨heffects, hothers⟩⟩

theorem CardDraft.provides {d : CardDraft} (h : ∀ g ∈ d.effects, Provides Group.InBounds g.read) :
    Provides CardDefinition.InBounds d.read := by
  refine .bind .trivial fun grade _ => .bind (.mapM h) fun effects heffects => .ok ?_
  exact ⟨fun g _ => by cases g <;> decide, heffects⟩

theorem ChoiceDraft.provides {d : ChoiceDraft}
    (hrequirements : ∀ c ∈ d.choice.requirements, c.kind.Resolved)
    (h : ∀ g ∈ d.effects, Provides Group.InBounds g.read) : Provides Choice.InBounds d.read :=
  .bind (.mapM h) fun _ heffects => .ok ⟨hrequirements, heffects⟩

theorem EventDraft.provides {d : EventDraft} (htriggers : ∀ c ∈ d.event.triggers, c.kind.Resolved)
    (h : ∀ g ∈ d.effects, Provides Group.InBounds g.read)
    (hchoices : ∀ c ∈ d.choices, Provides Choice.InBounds c.read) :
    Provides EventDefinition.InBounds d.read :=
  .bind (.mapM h) fun _ heffects => .bind (.mapM hchoices) fun _ hchoices =>
    .ok ⟨htriggers, heffects, hchoices⟩

/-! ## Documents that are accepted define what is in bounds -/

namespace Document

open Treasury.Field

/-- A value source is accepted if it is in bounds. -/
theorem ensures_valueSource (j : Json) : (valueSource j).Ensures ValueSource.InBounds := by
  refine ensures_object (fun o => ?_) j
  have hfixed : (Word.known SourceKind.fixed).Resolved := Word.resolved SourceKind.ofName?_name _
  exact .skip <| .skip <| .seq (.skip <|
    .map (fun _ hkind _ _ hmultiplier _ _ => ⟨hkind, hmultiplier⟩)
      (ensures_optional (ensures_taken (provides_anyWord SourceKind.ofName?_name)) hfixed))
    (ensures_optional (ensures_taken provides_finite) rfl)

theorem ensures_condition (j : Json) : (condition j).Ensures (·.kind.Resolved) := by
  refine ensures_object (fun o => ?_) j
  exact .skip <| .skip <| .skip <| .map (fun _ hkind _ _ _ => hkind)
    (ensures_required (ensures_taken (provides_anyWord ConditionKind.ofName?_name)))

/-- The conditions of a group, an option or an event are in one member. -/
theorem ensures_conditions (o : Members) (name : String) :
    (optional o name (listOf condition) []).Ensures (∀ c ∈ ·, c.kind.Resolved) :=
  ensures_optional (ensures_listOf ensures_condition) (List.forall_mem_nil _)

/-- An amount is accepted if its source, if it has one, is in bounds. -/
theorem ensures_amount (j : Json) :
    (amount j).Ensures fun a => ∀ s ∈ a.source?, s.InBounds := by
  intro a ha s hs
  unfold amount at ha
  split at ha
  · cases ha
    cases hs
  · next source _ hsource =>
    cases ha
    obtain rfl := Option.mem_some.mp hs
    exact ensures_valueSource j source hsource
  · cases ha

/-- An effect is accepted if what becomes of it is in bounds. -/
theorem ensures_effect_inBounds (j : Json) :
    (effect j).Ensures fun d => Provides Effect.InBounds d.read := by
  refine ensures_object (fun o => ?_) j
  have hkind : (required o "kind" (taken (anyWord EffectKind))).Ensures Word.Resolved :=
    ensures_required (ensures_taken (provides_anyWord EffectKind.ofName?_name))
  have hdynamic : (optional o "dynamic" (orNull valueSource) none).Ensures
      (∀ s ∈ ·, ValueSource.InBounds s) :=
    ensures_optional (ensures_orNull ensures_valueSource) fun _ h => nomatch h
  have hcount (name : String) : (optional o name (taken natural) 0).Ensures (0 ≤ ·) :=
    ensures_optional (ensures_taken provides_natural) le_rfl
  have hchance : (optional o "success_chance" (taken percent) 0).Ensures
      fun n => 0 ≤ n ∧ n ≤ 100 :=
    ensures_optional (ensures_taken provides_percent) (by decide)
  have hamount (name : String) : (optional o name amount (.fixed 0)).Ensures
      fun a => ∀ s ∈ a.source?, s.InBounds :=
    ensures_optional ensures_amount fun _ h => nomatch h
  -- The members from the last to the first, without those that nothing is asked of.
  refine .skip <| .skip <| .skip <| .seq (.seq (.seq (.seq (.skip <| .seq (.skip <| .seq (.skip <|
    .map ?_ hkind) hdynamic) (hcount _)) (hcount _)) hchance) (hamount _)) (hamount _)
  intro kind hkind _ dynamic hdynamic _ maxTargets hmax _ duration hduration chance hchance
    success hsuccess fail hfail _ _ _
  apply EffectDraft.provides
  refine ⟨hkind, hmax, hduration, hchance, nofun, fun s hs => ?_⟩
  simp only [Effect.sources, List.mem_append, Option.mem_toList] at hs
  obtain (hs | hs) | hs := hs
  · exact hdynamic s hs
  · exact hsuccess s hs
  · exact hfail s hs

theorem ensures_group_inBounds (j : Json) :
    (group j).Ensures fun d => Provides Group.InBounds d.read := by
  refine ensures_object (fun o => ?_) j
  have heffects (name : String) : (optional o name (listOf effect) []).Ensures
      (∀ d ∈ ·, Provides Effect.InBounds d.read) :=
    ensures_optional (ensures_listOf ensures_effect_inBounds) (List.forall_mem_nil _)
  exact .seq (.seq (.map (fun _ hconditions _ h _ helse => GroupDraft.provides hconditions h helse)
    (ensures_conditions o _)) (heffects _)) (heffects _)

/-- The groups of a card, an event or an option are in one member. -/
theorem ensures_groups_inBounds (o : Members) (name : String) :
    (optional o name (listOf group) []).Ensures (∀ d ∈ ·, Provides Group.InBounds d.read) :=
  ensures_optional (ensures_listOf ensures_group_inBounds) (List.forall_mem_nil _)

theorem ensures_card_inBounds (j : Json) :
    (card j).Ensures fun d => Provides CardDefinition.InBounds d.read := by
  refine ensures_object (fun o => ?_) j
  exact .seq (.skip <| .skip <| .skip <| .skip <| .skip <| .skip <| .skip <|
    .skip_map fun _ _ _ _ _ _ _ _ _ h => CardDraft.provides h) (ensures_groups_inBounds o _)

theorem ensures_choice_inBounds (j : Json) :
    (choice j).Ensures fun d => Provides Choice.InBounds d.read := by
  refine ensures_object (fun o => ?_) j
  exact .seq (.seq (.skip <| .skip_map fun _ _ _ hrequirements _ h =>
    ChoiceDraft.provides hrequirements h) (ensures_conditions o _)) (ensures_groups_inBounds o _)

theorem ensures_event_inBounds (j : Json) :
    (event j).Ensures fun d => Provides EventDefinition.InBounds d.read := by
  refine ensures_object (fun o => ?_) j
  exact .seq (.seq (.seq (.skip <| .skip <| .skip <| .skip_map
    fun _ _ _ _ _ htriggers _ heffects _ hchoices =>
      EventDraft.provides htriggers heffects hchoices)
    (ensures_conditions o _)) (ensures_groups_inBounds o _))
    (ensures_optional (ensures_listOf ensures_choice_inBounds) (List.forall_mem_nil _))

/-- The definitions of a document that is accepted are in bounds. -/
theorem Defines.inBounds {j : Json} {cards : List CardDefinition} {events : List EventDefinition}
    (h : Defines j cards events) :
    (∀ d ∈ cards, d.InBounds) ∧ ∀ e ∈ events, e.InBounds := by
  obtain ⟨d, hd, hcards, hevents⟩ := h
  have hread : (ofJson j).Ensures fun d =>
      Provides (∀ card ∈ ·, CardDefinition.InBounds card) (d.cards.mapM CardDraft.read) ∧
        Provides (∀ e ∈ ·, EventDefinition.InBounds e) (d.events.mapM EventDraft.read) := by
    refine ensures_object (fun o => ?_) j
    exact .seq (.map (fun _ hcards _ hevents => ⟨.mapM hcards, .mapM hevents⟩)
      (ensures_optional (ensures_listOf ensures_card_inBounds) (List.forall_mem_nil _)))
      (ensures_optional (ensures_listOf ensures_event_inBounds) (List.forall_mem_nil _))
  exact ⟨(hread d hd).1 cards hcards, (hread d hd).2 events hevents⟩

end Document

/-! ## Catalogs that are loaded -/

namespace Catalog

/-- Of the definitions that are added some are kept, and the others are of before. -/
theorem mem_addingAll {α : Type} {id : α → String} {ds l : List α} {d : α}
    (h : d ∈ addingAll id ds l) : d ∈ ds ∨ d ∈ l := by
  induction ds generalizing l with
  | nil => exact .inr h
  | cons first rest ih =>
    -- Adding one definition replaces another of its id or puts it behind all.
    have hadding : ∀ l, d ∈ adding id first l → d = first ∨ d ∈ l := by
      intro l
      induction l with
      | nil => simp [adding]
      | cons e l ihl =>
        unfold adding
        split <;> simp only [List.mem_cons] <;> grind
    rcases ih h with h | h
    · exact .inl (List.mem_cons_of_mem _ h)
    · rcases hadding l h with rfl | h
      · exact .inl List.mem_cons_self
      · exact .inr h

/-- Definitions in bounds are added to a catalog in bounds. -/
theorem InBounds.extended {c : Catalog} (h : c.InBounds) {cards : List CardDefinition}
    {events : List EventDefinition} (hcards : ∀ d ∈ cards, d.InBounds)
    (hevents : ∀ e ∈ events, e.InBounds) : (c.extended cards events).InBounds where
  cards d hd := (mem_addingAll hd).elim (hcards d) (h.cards d)
  events e he := (mem_addingAll he).elim (hevents e) (h.events e)

/-- A document that is loaded defines what it adds. -/
theorem exists_defines_of_load {c u : Catalog} {j : Json} (h : c.load j = .ok u) :
    ∃ cards events, Document.Defines j cards events ∧ u = c.extended cards events := by
  have hexec : exec (Document.loading j) c = (.ok (), u) := by
    unfold load at h
    change (match exec (Document.loading j) c with
      | (.ok _, c) => Except.ok c
      | (.error fault, _) => .error fault.problems) = .ok u at h
    split at h
    · next hexec =>
      cases h
      exact hexec
    · cases h
  obtain ⟨cards, events, hdefines, -⟩ := Document.of_exec_loading hexec
  rw [Document.exec_loading_of_defines hdefines] at hexec
  exact ⟨cards, events, hdefines, (congrArg Prod.snd hexec).symm⟩

/-- Catalogs that are built from documents alone, one after another. -/
inductive Loaded : Catalog → Prop
  | empty : Loaded {}
  | load {c u : Catalog} {j : Json} (hc : Loaded c) (h : c.load j = .ok u) : Loaded u

/-- Catalogs that are built from documents alone are in bounds. -/
theorem Loaded.inBounds {c : Catalog} (h : c.Loaded) : c.InBounds := by
  induction h with
  | empty => exact ⟨List.forall_mem_nil _, List.forall_mem_nil _⟩
  | load _ hload ih =>
    obtain ⟨cards, events, hdefines, rfl⟩ := exists_defines_of_load hload
    exact ih.extended hdefines.inBounds.1 hdefines.inBounds.2

end Catalog

end Treasury
