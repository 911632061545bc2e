import Treasury.Proofs.Activation.Rest

/-!
# What a recorder takes down

The record of a machine whose only observer is a recorder has one block for each activation. A block
begins when its activation starts and ends when it completes; in between each effect takes its turn,
and if the player had to pick its targets the request comes right before the effect. A block that
does not end so ends with a request instead: of the activation that waits, or of one that another
took over from.

* `Block.events` is what is taken down of an activation, and `Turn.events` what of an effect.
* `Machine.Within`: the machine has taken some turns of a block. `Engine.drain_closes` says that the
  rest of the queue makes further turns and then closes the block.
* `Machine.Records` is the invariant: the record consists of blocks. `Machine.Records.call` is the
  step, and `record_eq_blocks_of_calls` the statement for runs.
-/

namespace Treasury

/-! ## Blocks of events -/

/-- What is taken down of an effect. -/
structure Turn where
  /-- The request to pick its targets, if the player was asked. -/
  asked : Option TargetRequest
  /-- The kind of the effect. -/
  kind : Word EffectKind
  /-- Its magnitude. -/
  magnitude : Int
  /-- Its result. -/
  result : EffectResult
  deriving Inhabited

/-- The events of a turn. -/
def Turn.events (t : Turn) : List Event :=
  t.asked.toList.map .targetRequired ++ [.executed t.kind t.magnitude t.result]

/-- The request of a turn is for its effect. -/
def Turn.Sound (t : Turn) : Prop := ∀ q ∈ t.asked, q.effectKind = t.kind

/-- What is taken down of an activation. -/
structure Block where
  /-- The card that the activation came from. -/
  source : Option Card
  /-- The turns of its effects. -/
  turns : List Turn := []
  /-- The request at which it stopped, unless it completed. -/
  request : Option TargetRequest := none
  deriving Inhabited

namespace Block

/-- The events of a block up to its end. -/
def opening (b : Block) : List Event := .started b.source :: b.turns.flatMap (·.events)

/-- The event that a block ends with. -/
def closing (b : Block) : Event :=
  match b.request with
  | none => .completed b.source
  | some q => .targetRequired q

/-- The events of a block. -/
def events (b : Block) : List Event := b.opening ++ [b.closing]

/-- The results of the effects. -/
def results (b : Block) : List EffectResult := b.turns.map (·.result)

/-- All requests are for the effects that follow them. -/
def Sound (b : Block) : Prop := ∀ t ∈ b.turns, t.Sound

/-- The block after the turn of a further effect, for which the request was at which it stopped. -/
def taking (b : Block) (kind : Word EffectKind) (magnitude : Int) (result : EffectResult) : Block :=
  { b with
    turns := b.turns ++ [{ asked := b.request, kind, magnitude, result }], request := none }

theorem opening_taking (b : Block) (kind : Word EffectKind) (magnitude : Int)
    (result : EffectResult) : (b.taking kind magnitude result).opening =
      b.opening ++ b.request.toList.map .targetRequired ++ [.executed kind magnitude result] := by
  simp [opening, taking, Turn.events]

theorem results_taking (b : Block) (kind : Word EffectKind) (magnitude : Int)
    (result : EffectResult) :
    (b.taking kind magnitude result).results = b.results ++ [result] := by
  simp [results, taking]

theorem Sound.taking {b : Block} (h : b.Sound) {kind : Word EffectKind}
    (hkind : ∀ q ∈ b.request, q.effectKind = kind) (magnitude : Int) (result : EffectResult) :
    (b.taking kind magnitude result).Sound := by
  intro t ht
  rcases List.mem_append.mp ht with ht | ht
  · exact h t ht
  · rw [List.mem_singleton.mp ht]
    exact hkind

end Block

/-! ## Machines within a block -/

/-- The machine has taken down the events before a block and those of the block up to its end, and
it has the results of the block. If the block has a request, that is taken down as well. -/
structure Machine.Within (m : Machine) (before : List Event) (b : Block) : Prop where
  /-- The only observer is a recorder. -/
  observers_eq : m.observers = [.recorder]
  /-- What was taken down. -/
  record_eq : m.record = before ++ b.opening ++ b.request.toList.map .targetRequired
  /-- The results so far are those of the block. -/
  results_eq : m.results.items = b.results
  /-- The activation came from the card of the block. -/
  source_eq : m.source = b.source
  /-- All requests are for the effects that follow them. -/
  sound : b.Sound

/-- A call with an outcome leaves a machine on which a block is closed. -/
structure Block.Closes (b : Block) (before : List Event) (o : Outcome) (m : Machine) : Prop where
  /-- The only observer is a recorder. -/
  observers_eq : m.observers = [.recorder]
  /-- What was taken down. -/
  record_eq : m.record = before ++ b.events
  /-- All requests are for the effects that follow them. -/
  sound : b.Sound
  /-- The results of the outcome are those of the block. -/
  results_eq : o.results = b.results
  /-- The outcome names the card of the block. -/
  source_eq : o.source = b.source
  /-- The outcome says where the machine stands. -/
  phase_eq : o.phase = m.phase
  /-- The machine has the request of the block. -/
  request_eq : m.request = b.request
  /-- The machine waits if there is a request, and else the activation is completed. -/
  phase_of_request : m.phase = if b.request.isSome then .awaitingTarget else .completed
  /-- While the machine waits it has the results of the block. -/
  results_of_request : b.request.isSome = true → m.results.items = b.results
  /-- While the machine waits it has the card of the block. -/
  source_of_request : b.request.isSome = true → m.source = b.source

namespace Machine

variable {m : Machine} {before : List Event} {b : Block}

theorem Within.quiet (h : m.Within before b) : m.Quiet := by
  intro o ho
  rw [h.observers_eq] at ho
  exact List.mem_singleton.mp ho

/-- What a machine with one recorder notes is one event more. -/
theorem record_noted (h : m.observers = [.recorder]) (e : Event) :
    (m.noted e).record = m.record ++ [e] := by
  rw [noted_record, h]
  rfl

/-- What else the machine has, its queue or its table, does not matter. -/
theorem Within.of_eq (h : m.Within before b) {m' : Machine}
    (hobservers : m'.observers = m.observers) (hrecord : m'.record = m.record)
    (hresults : m'.results = m.results) (hsource : m'.source = m.source) : m'.Within before b where
  observers_eq := hobservers.trans h.observers_eq
  record_eq := hrecord.trans h.record_eq
  results_eq := (congrArg ResultStack.items hresults).trans h.results_eq
  source_eq := hsource.trans h.source_eq
  sound := h.sound

/-- An effect takes its turn. -/
theorem Within.executed (h : m.Within before b) {kind : Word EffectKind}
    (hkind : ∀ q ∈ b.request, q.effectKind = kind) (magnitude : Int) (result : EffectResult)
    {m' : Machine} (hobservers : m'.observers = m.observers) (hrecord : m'.record = m.record)
    (hresults : m'.results = m.results.push result) (hsource : m'.source = m.source) :
    (m'.noted (.executed kind magnitude result)).Within before
      (b.taking kind magnitude result) where
  observers_eq := hobservers.trans h.observers_eq
  record_eq := by
    rw [record_noted (hobservers.trans h.observers_eq), hrecord, h.record_eq, b.opening_taking]
    simp [Block.taking]
  results_eq := by
    rw [noted_results, hresults, ResultStack.items_push, h.results_eq, b.results_taking]
  source_eq := hsource.trans h.source_eq
  sound := h.sound.taking hkind magnitude result

end Machine

namespace Engine

open Machine (Within)

variable {r : Rules} {tell : Tell} {before : List Event} {source : Option Card}

/-- A call that has an outcome closes a block of the given card. -/
def Closes (before : List Event) (source : Option Card)
    (done : Except EngineError Outcome × Machine) : Prop :=
  ∀ o, done.1 = .ok o → ∃ b : Block, b.source = source ∧ b.Closes before o done.2

/-- Wherever the turn of an effect leaves the machine within the block, what comes next closes it.
The turn changes neither the request nor the number of the activation. -/
def ClosesNext (before : List Event) (m : Machine) (b : Block) (next : Run Outcome) : Prop :=
  ∀ (m' : Machine) (b' : Block), m'.Within before b' → b'.source = b.source → b'.request = none →
    m'.request = m.request → m'.activation = m.activation →
      Closes before b.source (exec next m')

variable (ht : Discreet tell)

include ht

/-- If what comes after an effect closes the block, so does the effect with it. -/
theorem dispatch_closes {m : Machine} {b : Block} {p : Pending} (h : m.Within before b)
    (hkind : ∀ q ∈ b.request, q.effectKind = p.effect.kind) (targets : List Card)
    {next : Run Outcome} (hnext : ClosesNext before m b next) :
    Closes before b.source (exec (dispatch tell r p targets >>= fun _ => next) m) := by
  rw [exec_dispatch_bind]
  rcases exec (p.carriedOut r targets m.results) m.table with ⟨f | ⟨magnitude, result⟩, t⟩
  · intro o ho
    cases ho
  · dsimp only
    rw [ht.exec_bind (by exact h.quiet)]
    exact hnext _ _ (h.executed hkind magnitude result rfl rfl rfl rfl) rfl rfl rfl rfl

/-- The same of an effect that is passed over. -/
theorem complete_closes {m : Machine} {b : Block} {p : Pending} (h : m.Within before b)
    (hkind : ∀ q ∈ b.request, q.effectKind = p.effect.kind) (result : EffectResult)
    (magnitude : Int) {next : Run Outcome} (hnext : ClosesNext before m b next) :
    Closes before b.source
      (exec (complete tell p result magnitude >>= fun _ => next) m) := by
  rw [exec_bind, exec_complete ht h.quiet]
  exact hnext _ _ (h.executed hkind magnitude result rfl rfl rfl rfl) rfl rfl rfl rfl

/-- Completing the activation closes the block. -/
theorem finish_closes {m : Machine} {b : Block} (h : m.Within before b) (hb : b.request = none)
    (hm : m.request = none) : Closes before b.source (exec (finish tell) m) := by
  rw [exec_finish ht h.quiet]
  intro o ho
  cases ho
  -- The block that is closed is the one in which the effects were written down.
  refine ⟨b, rfl, ?_⟩
  have hrecord := Machine.record_noted (m := { m with
    phase := .completed, queue := [], results := {}, current := none, source := none })
    h.observers_eq (.completed m.source)
  refine ⟨h.observers_eq, hrecord.trans ?_, h.sound, h.results_eq, h.source_eq, rfl,
    hm.trans hb.symm, ?_, ?_, ?_⟩
  · simp [h.record_eq, h.source_eq, Block.events, Block.closing, hb]
  · simp [hb]
  · simp [hb]
  · simp [hb]

/-- So does asking the player for targets. -/
theorem suspend_closes {m : Machine} {b : Block} (h : m.Within before b) (hb : b.request = none)
    (q : TargetRequest) : Closes before b.source (exec (suspend tell q) m) := by
  rw [exec_suspend ht h.quiet]
  intro o ho
  cases ho
  -- The request is the end of the block for now; if it is answered the block goes on behind it.
  refine ⟨{ b with request := some q }, rfl, ?_⟩
  have hrecord := Machine.record_noted (m := { m with
    phase := .awaitingTarget, request := some q }) h.observers_eq (.targetRequired q)
  refine ⟨h.observers_eq, hrecord.trans ?_, h.sound, h.results_eq, h.source_eq, rfl, rfl, rfl,
    fun _ => h.results_eq, fun _ => h.source_eq⟩
  simp [h.record_eq, Block.events, Block.closing, Block.opening, hb]

/-- The effects of the queue take their turns, and then the block is closed: by completing the
activation, or by the request at which it stops. -/
theorem drain_closes {n : Nat} (queue : List Pending) {m : Machine} {b : Block}
    (h : m.Within before b) (hb : b.request = none) (hm : m.request = none)
    (hn : m.activation = n) : Closes before b.source (exec (drain tell r n queue) m) := by
  induction queue generalizing m b with
  | nil => exact finish_closes ht h hb hm
  | cons p rest ih =>
    -- After the turn of the first effect the loop goes on with the rest.
    have hgo : ClosesNext before m b (goOn tell r n rest) := by
      intro m' b' h' hsource hb' hm' hn'
      rw [exec_goOn tell (hn'.trans hn), ← hsource]
      exact ih h' hb' (hm'.trans hm) (hn'.trans hn)
    have hnone : ∀ q ∈ b.request, q.effectKind = p.effect.kind := by
      rw [hb]
      exact fun _ hq => nomatch hq
    -- Taking the effect in work changes nothing of the block.
    have htaken : ∀ (phase : Phase) (t : Table),
        ({ m with queue := rest, current := some p, phase, table := t } : Machine).Within before
          b := fun _ _ => h.of_eq rfl rfl rfl rfl
    by_cases hsel : p.effect.target.needsSelection = true
    · by_cases hempty : (p.effect.selectable r m.table.game).isEmpty = true
      · rw [exec_drain_nothing tell hsel hempty]
        exact complete_closes ht (htaken m.phase m.table) hnone _ _ hgo
      · have hsome := Bool.eq_false_iff.mpr hempty
        by_cases hauto : r.config.autoSelect = true
        · rw [exec_drain_picked tell hsel hsome hauto]
          exact dispatch_closes ht (htaken m.phase m.table) hnone _ hgo
        · rw [exec_drain_asked tell hsel hsome (Bool.eq_false_iff.mpr hauto)]
          exact suspend_closes ht (htaken m.phase m.table) hb _
    · rw [exec_drain_collected tell (Bool.eq_false_iff.mpr hsel)]
      rcases exec (p.effect.autoTargets r p.source) m.table with ⟨f | targets, t⟩
      · intro o ho
        cases ho
      · exact dispatch_closes ht (htaken .autoTargeting t) hnone targets hgo

/-- The queue is worked off from where the machine stands. -/
theorem proceed_closes {n : Nat} {m : Machine} {b : Block} (h : m.Within before b)
    (hb : b.request = none) (hm : m.request = none) (hn : m.activation = n) :
    Closes before b.source (exec (proceed tell r n) m) := by
  rw [exec_proceed, exec_goOn tell hn]
  exact drain_closes ht m.queue h hb hm hn

theorem proceed_closesNext {n : Nat} {m : Machine} {b : Block} (hm : m.request = none)
    (hn : m.activation = n) : ClosesNext before m b (proceed tell r n) := by
  intro m' b' h' hsource hb' hm' hn'
  rw [← hsource]
  exact proceed_closes ht h' hb' (hm'.trans hm) (hn'.trans hn)

/-- An activation that is started has a block of its own. -/
theorem start_closes {m : Machine} (hm : m.observers = [.recorder])
    (hfree : m.isBusy = true → r.config.policy ≠ .reject) (groups : List Group)
    (source : Option Card) :
    Closes m.record source (exec (start tell r groups source) m) := by
  have hquiet : m.Quiet := fun o ho => List.mem_singleton.mp (hm ▸ ho)
  rw [exec_start tell hfree (ht _ _ (by exact hquiet)) rfl, exec_bind]
  obtain ⟨f, t, queue, -, hdone⟩ | ⟨entries, t, -, hdone⟩ :=
    exec_expand (r := r) (m := { { m with
      activation := m.activation + 1, queue := [], results := {}, current := none, request := none,
      source }.noted (.started source) with phase := .expanding }) source groups rfl <;>
    rw [hdone]
  · -- A magnitude that cannot be drawn ends the call without an outcome.
    intro o ho
    cases ho
  · have hrecord := Machine.record_noted (m := { m with
      activation := m.activation + 1, queue := [], results := {}, current := none,
      request := none, source }) hm (.started source)
    -- The new block has a source and nothing else yet.
    refine proceed_closes ht (b := { source }) ⟨hm, hrecord.trans ?_, rfl, rfl, ?_⟩ rfl rfl rfl
    · simp [Block.opening]
    · exact fun _ ht => nomatch ht

section Answers

variable {m : Machine} {p : Pending} {b : Block} (h : m.Within before b) (hw : m.Waiting r p)
  (hb : b.request = m.request)

include hw hb

omit ht in
/-- The request at which the block stopped is for the effect that waits. -/
theorem kind_of_request : ∀ q ∈ b.request, q.effectKind = p.effect.kind := by
  rw [hb, hw.request_eq]
  rintro q hq
  rw [← Option.mem_some_iff.mp hq]
  rfl

include h

/-- Whatever targets are picked, the effect that waits takes its turn, and the block is closed. -/
theorem resume_closes (ids : List String) :
    Closes before b.source (exec (resume tell r ids) m) := by
  rcases hids : selected (p.effect.request (p.effect.selectable r m.table.game)) ids
    with e | targets
  · rw [exec_resume_refused tell hw.phase_eq hw.request_eq hids]
    intro o ho
    cases ho
  · rw [exec_resume tell hw.phase_eq hw.current_eq hw.request_eq hids]
    -- The request is answered, but the recorder has it.
    have hasked : ({ m with request := none } : Machine).Within before b := h.of_eq rfl rfl rfl rfl
    exact dispatch_closes ht hasked (kind_of_request hw hb) targets (proceed_closesNext ht rfl rfl)

/-- So it is if the effect is passed over. -/
theorem cancel_closes : Closes before b.source (exec (cancel tell r) m) := by
  rw [exec_cancel tell hw.phase_eq hw.current_eq]
  have hasked : ({ m with request := none } : Machine).Within before b := h.of_eq rfl rfl rfl rfl
  exact complete_closes ht hasked (kind_of_request hw hb) _ _ (proceed_closesNext ht rfl rfl)

end Answers

end Engine

/-! ## Runs -/

/-- The sources and results of the blocks of activations that completed. -/
def Block.conclusions (bs : List Block) : List (Option Card × List EffectResult) :=
  (bs.filter (·.request.isNone)).map fun b => (b.source, b.results)

namespace Machine

/-- The record of a machine consists of blocks. The machine waits if the last one ends with a
request, and then it has the results and the card of that block. -/
structure Records (m : Machine) (bs : List Block) : Prop where
  /-- The only observer is a recorder. -/
  observers_eq : m.observers = [.recorder]
  /-- What was taken down. -/
  record_eq : m.record = bs.flatMap (·.events)
  /-- All requests are for the effects that follow them. -/
  sound : ∀ b ∈ bs, b.Sound
  /-- The machine has the request of the last block. -/
  request_eq : m.request = bs.getLast?.bind (·.request)
  /-- The machine waits if it has a request. -/
  waits_iff : m.phase = .awaitingTarget ↔ m.request.isSome = true
  /-- While the machine waits it has the results of the last block. -/
  results_eq : ∀ b ∈ bs.getLast?, b.request.isSome = true → m.results.items = b.results
  /-- While the machine waits it has the card of the last block. -/
  source_eq : ∀ b ∈ bs.getLast?, b.request.isSome = true → m.source = b.source

variable {r : Rules} {m m' : Machine} {bs init : List Block} {b : Block} {o : Outcome}

/-- The table is no part of the record. -/
theorem Records.of_table (h : m.Records bs) (t : Table) : { m with table := t }.Records bs :=
  ⟨h.observers_eq, h.record_eq, h.sound, h.request_eq, h.waits_iff, h.results_eq, h.source_eq⟩

/-- When a block is closed behind others, the record consists of all of them. -/
theorem Records.of_closes (hinit : ∀ b ∈ init, b.Sound)
    (hb : b.Closes (init.flatMap (·.events)) o m') : m'.Records (init ++ [b]) where
  observers_eq := hb.observers_eq
  record_eq := by rw [hb.record_eq, List.flatMap_append, List.flatMap_singleton]
  sound c hc := (List.mem_append.mp hc).elim (hinit c) fun hc => List.mem_singleton.mp hc ▸ hb.sound
  request_eq := by rw [hb.request_eq, List.getLast?_concat]; rfl
  waits_iff := by
    rw [hb.phase_of_request, hb.request_eq]
    cases b.request <;> simp
  results_eq c hc := by
    rw [List.getLast?_concat] at hc
    rw [← Option.mem_some_iff.mp hc]
    exact hb.results_of_request
  source_eq c hc := by
    rw [List.getLast?_concat] at hc
    rw [← Option.mem_some_iff.mp hc]
    exact hb.source_of_request

/-- A machine that waits is within the last block. -/
theorem Records.exists_within (h : m.Records bs) (hphase : m.phase = .awaitingTarget) :
    ∃ init b, bs = init ++ [b] ∧ b.request = m.request ∧
      m.Within (init.flatMap (·.events)) b := by
  -- The request that the machine waits with is that of the last block.
  obtain ⟨q, hq⟩ := Option.isSome_iff_exists.mp (h.waits_iff.mp hphase)
  obtain ⟨b, hlast, hb⟩ := Option.bind_eq_some_iff.mp (h.request_eq.symm.trans hq)
  obtain ⟨init, rfl⟩ := List.getLast?_eq_some_iff.mp hlast
  have hsome : b.request.isSome = true := by rw [hb]; rfl
  refine ⟨init, b, rfl, hb.trans hq.symm, h.observers_eq, ?_, h.results_eq b hlast hsome,
    h.source_eq b hlast hsome, h.sound b (List.mem_append_right _ List.mem_cons_self)⟩
  rw [h.record_eq]
  simp [Block.events, Block.closing, hb]

/-- A block that is closed adds a conclusion if the outcome says that the activation completed. -/
theorem conclusions_of_closes {before : List Event} (hb : b.Closes before o m') :
    Block.conclusions (init ++ [b]) = Block.conclusions init ++
      if o.phase = .completed then [(o.source, o.results)] else [] := by
  rw [hb.phase_eq, hb.phase_of_request, hb.source_eq, hb.results_eq]
  cases hrequest : b.request <;> simp [Block.conclusions, hrequest]

/-- A block that ends with a request is no conclusion. -/
theorem conclusions_of_request (hb : b.request.isSome = true) :
    Block.conclusions (init ++ [b]) = Block.conclusions init := by
  cases hrequest : b.request with
  | none => rw [hrequest] at hb; cases hb
  | some q => simp [Block.conclusions, hrequest]

/-- An answer that nobody asked for. -/
def Unasked (m : Machine) : HostCall → Prop
  | .start .. => False
  | .answer _ => m.phase ≠ .awaitingTarget

instance (m : Machine) : DecidablePred m.Unasked
  | .start .. => inferInstanceAs (Decidable False)
  | .answer _ => inferInstanceAs (Decidable (m.phase ≠ .awaitingTarget))

/-- The final outcome of the activation that a call brings to its end, if it does. -/
def conclusion? (r : Rules) (m : Machine) (c : HostCall) : Option Outcome :=
  match (m.call r c).1 with
  | .ok o => if o.phase = .completed ∧ ¬ m.Unasked c then some o else none
  | .error _ => none

/-- The final outcomes of the activations that calls bring to their ends. -/
def conclusions (r : Rules) : Machine → List HostCall → List Outcome
  | _, [] => []
  | m, c :: rest => (m.conclusion? r c).toList ++ conclusions r (m.call r c).2 rest

/-- A call that is refused, or an answer that nobody asked for, leaves the machine as it was. -/
theorem eq_of_call_idle {c : HostCall}
    (h : m.Unasked c ∨ ∃ e, (m.call r c).1 = .error e ∧ e.isRefusal = true) :
    (m.call r c).2 = m := by
  rcases h with hunasked | ⟨e, he, hrefusal⟩
  · cases c with
    | start groups source => exact hunasked.elim
    | answer a => rw [answer_unasked hunasked]
  · exact eq_of_call_refused he hrefusal

/-- A call that has an outcome and is not in vain closes a block behind all others that ended, and
those are as many as completed before. -/
theorem Records.exists_closes (h : m.Records bs) (hready : m.Ready r) {c : HostCall}
    (hasked : ¬ m.Unasked c) (ho : (m.call r c).1 = .ok o) :
    ∃ (init : List Block) (b : Block), (∀ b ∈ init, b.Sound) ∧
      Block.conclusions init = Block.conclusions bs ∧
      b.Closes (init.flatMap (·.events)) o (m.call r c).2 := by
  cases c with
  | start groups source =>
    have hfree : m.isBusy = true → r.config.policy ≠ .reject := by
      intro hbusy hreject
      have hrefused : m.call r (.start groups source) = _ :=
        Engine.exec_start_refused _ hbusy hreject groups source
      rw [hrefused] at ho
      cases ho
    -- If another activation waits, its block keeps the request at its end.
    obtain ⟨b, -, hb⟩ := Engine.start_closes (Engine.discreet_of_quiet hready.quiet)
      h.observers_eq hfree groups source o ho
    rw [h.record_eq] at hb
    exact ⟨bs, b, h.sound, rfl, hb⟩
  | answer a =>
    -- The last block goes on, and was no conclusion before.
    have hphase : m.phase = .awaitingTarget := Decidable.byContradiction hasked
    obtain ⟨init, b, rfl, hrequest, hwithin⟩ := h.exists_within hphase
    have hsome : b.request.isSome = true := hrequest ▸ h.waits_iff.mp hphase
    obtain ⟨p, hw⟩ := hready.exists_waiting hphase
    have hcloses : Engine.Closes (init.flatMap (·.events)) b.source (m.answer r a) := by
      have ht := Engine.discreet_of_quiet (r := r) hready.quiet
      cases a with
      | pick ids => exact Engine.resume_closes ht hwithin hw hrequest ids
      | pass => exact Engine.cancel_closes ht hwithin hw hrequest
    obtain ⟨b', -, hb'⟩ := hcloses o ho
    exact ⟨init, b', fun c hc => h.sound c (List.mem_append_left _ hc),
      (conclusions_of_request hsome).symm, hb'⟩

/-- After a call that has an outcome or is refused, the record still consists of blocks. There is
one conclusion more if the call brings an activation to its end. -/
theorem Records.call (h : m.Records bs) (hready : m.Ready r) (c : HostCall)
    (hend : ∀ e, (m.call r c).1 = .error e → e.isRefusal = true) :
    ∃ bs', (m.call r c).2.Records bs' ∧ Block.conclusions bs' =
      Block.conclusions bs ++ (m.conclusion? r c).toList.map fun o => (o.source, o.results) := by
  -- A call that answers nothing or is refused adds no block, and any other adds one.
  by_cases hidle : m.Unasked c ∨ ∃ e, (m.call r c).1 = .error e ∧ e.isRefusal = true
  · have hnone : m.conclusion? r c = none := by
      unfold conclusion?
      rcases hidle with hunasked | ⟨e, he, -⟩
      · cases (m.call r c).1 <;> simp [hunasked]
      · rw [he]
    refine ⟨bs, by rwa [eq_of_call_idle hidle], ?_⟩
    rw [hnone]
    exact (List.append_nil _).symm
  · obtain ⟨hasked, hrefused⟩ := not_or.mp hidle
    rcases ho : (m.call r c).1 with e | o
    · exact absurd ⟨e, ho, hend e ho⟩ hrefused
    · obtain ⟨init, b, hinit, hbefore, hb⟩ := h.exists_closes hready hasked ho
      refine ⟨init ++ [b], .of_closes hinit hb, ?_⟩
      rw [conclusions_of_closes hb, hbefore, conclusion?, ho]
      dsimp only
      by_cases hphase : o.phase = .completed <;> simp [hphase, hasked]

/-- After calls that have outcomes or are refused, the record still consists of blocks, with one
conclusion more for each activation that they bring to its end. -/
theorem Records.calls (cs : List HostCall) (h : m.Records bs) (hready : m.Ready r)
    (hend : ∀ done ∈ m.calls r cs, ∀ e, done.1 = .error e → e.isRefusal = true) :
    ∃ bs', (m.afterCalls r cs).Records bs' ∧ Block.conclusions bs' =
      Block.conclusions bs ++ (conclusions r m cs).map fun o => (o.source, o.results) := by
  induction cs generalizing m bs with
  | nil => exact ⟨bs, h, (List.append_nil _).symm⟩
  | cons c rest ih =>
    rw [Machine.calls, List.forall_mem_cons] at hend
    obtain ⟨bs', hrecords, hmore⟩ := h.call hready c hend.1
    -- What the call leaves is ready for the next one.
    have hnext : (m.call r c).2.Ready r := by
      rcases ho : (m.call r c).1 with e | o
      · rwa [eq_of_call_refused ho (hend.1 e ho)]
      · exact (ready_of_call hready ho).1
    obtain ⟨bs'', hrecords', hmore'⟩ := ih hrecords hnext hend.2
    refine ⟨bs'', hrecords', ?_⟩
    rw [hmore', hmore, conclusions, List.map_append, List.append_assoc]

/-- The trace ends with a request if the last block does. -/
theorem Records.getLast?_record_iff (h : m.Records bs) (q : TargetRequest) :
    m.record.getLast? = some (.targetRequired q) ↔ m.request = some q := by
  rw [h.request_eq, h.record_eq]
  rcases List.eq_nil_or_concat bs with rfl | ⟨init, b, rfl⟩
  · simp
  · rw [List.concat_eq_append, List.flatMap_append, List.flatMap_singleton, Block.events,
      ← List.append_assoc, List.getLast?_concat, List.getLast?_concat, Option.bind_some,
      Block.closing]
    cases b.request <;> simp

/-- A machine on a table that nothing was done with, with a recorder. -/
def recording (t : Table) : Machine := { table := t, observers := [.recorder] }

end Machine

/-- After calls of a host that have outcomes or are refused, what the recorder took down consists of
blocks. The last one ends with a request if and only if the machine waits; a block that ends with a
request and is not the last one is followed by the start of another. The blocks that are complete
have the sources and results of the final outcomes in order. The trace ends with the request that
the machine waits with. Calls that are refused and answers that nobody asked for add nothing. -/
theorem record_eq_blocks_of_calls {r : Rules} {t : Table} (cs : List HostCall)
    (hend : ∀ done ∈ (Machine.recording t).calls r cs,
      ∀ e, done.1 = .error e → e.isRefusal = true) :
    let m := (Machine.recording t).afterCalls r cs
    ∃ bs : List Block, m.record = bs.flatMap (·.events) ∧ (∀ b ∈ bs, b.Sound) ∧
      ((∃ b ∈ bs.getLast?, b.request.isSome = true) ↔ m.phase = .awaitingTarget) ∧
      (bs.filter (·.request.isNone)).map (fun b => (b.source, b.results)) =
        ((Machine.recording t).conclusions r cs).map (fun o => (o.source, o.results)) ∧
      ((∃ q, m.record.getLast? = some (.targetRequired q)) ↔ m.phase = .awaitingTarget) ∧
      ∀ c, (m.Unasked c ∨ ∃ e, (m.call r c).1 = .error e ∧ e.isRefusal = true) →
        (m.call r c).2.record = m.record := by
  intro m
  -- Before the first call there are no blocks.
  have hstart : (Machine.recording t).Records [] :=
    ⟨rfl, rfl, fun _ hb => (nomatch hb), rfl, by simp [Machine.recording],
      fun _ hb => (nomatch hb), fun _ hb => (nomatch hb)⟩
  have hready : (Machine.recording t).Ready r :=
    ⟨fun o ho => List.mem_singleton.mp ho, .inl rfl⟩
  obtain ⟨bs, hrecords, hconclusions⟩ := hstart.calls cs hready hend
  change m.Records bs at hrecords
  refine ⟨bs, hrecords.record_eq, hrecords.sound, ?_, hconclusions, ?_, fun c hc => ?_⟩
  · rw [hrecords.waits_iff, hrecords.request_eq]
    cases bs.getLast? <;> simp
  · rw [hrecords.waits_iff, Option.isSome_iff_exists]
    exact exists_congr hrecords.getLast?_record_iff
  · rw [Machine.eq_of_call_idle hc]

/-- One request, answered by the only card there is to pick, and an answer too many. -/
theorem record_eq_blocks_of_one_request :
    let copper : Card := { serial := 1, instanceId := "copper#1", cardId := "copper" }
    let t : Table :=
      { game := { zones := { hand := [copper] } },
        dice := { twister := { words := #[], used := 0 } } }
    let cs : List HostCall := [
      .start [Group.always [{ kind := .known .destroyCard, target := .handCard }, .gold 5]] none,
      .answer (.pick ["copper#1"]), .answer .pass]
    (∀ done ∈ (Machine.recording t).calls {} cs,
        ∀ e, done.1 = .error e → e.isRefusal = true) ∧
      ∃ bs : List Block, ((Machine.recording t).afterCalls {} cs).record = bs.flatMap (·.events) ∧
        (bs.filter (·.request.isNone)).map (fun b => (b.source, b.results)) =
          ((Machine.recording t).conclusions {} cs).map (fun o => (o.source, o.results)) := by
  intro copper t cs
  have hend : ∀ done ∈ (Machine.recording t).calls {} cs,
      ∀ e, done.1 = .error e → e.isRefusal = true := by
    have hall : ((Machine.recording t).calls {} cs).all (·.1.isOk) = true := by decide +kernel
    intro done hdone e he
    have hok := List.all_eq_true.mp hall done hdone
    rw [he] at hok
    cases hok
  obtain ⟨bs, hrecord, -, -, hconclusions, -⟩ := record_eq_blocks_of_calls cs hend
  exact ⟨hend, bs, hrecord, hconclusions⟩

end Treasury
