import Treasury.Proofs.Activation.Work
import Treasury.Proofs.Journey

/-!
# Histories of activations

What happens to activations, told without calls. A `Deed` is what is done to an activation,
`Scene.Step` says which deeds a machine allows where it stands, and a `Scene.Path` is a history of
them. Where calls of the machine are nested, a path has one step after the other, so nothing in it
can go on after an interruption.

* `Handover` is what is handed to an effect when it is dispatched, and `Pending.Fetches` says where
  its targets come from.
* `Execution` is what is then carried out, on which table.
* A history is a journey, so `Journey.exists_of_append` and its companions cut it at any point.
* `Deed.Authoritative` says what an effect is carried out with.
-/

namespace Treasury

/-- What is handed to an effect when it is dispatched. -/
structure Handover where
  /-- The effect. -/
  effect : Effect
  /-- The card that the activation came from. -/
  source : Option Card
  /-- The targets. -/
  targets : List Card
  /-- The game at the time. -/
  game : GameState
  /-- The dice from which random targets were drawn. -/
  dice : Random.Dice
  deriving DecidableEq, Inhabited

/-- An effect that is carried out on a table. -/
structure Execution where
  /-- The effect with its targets. -/
  assignment : Assignment
  /-- The table that it is carried out on. -/
  before : Table
  deriving DecidableEq, Inhabited

namespace Execution

variable (r : Rules) (x : Execution)

/-- The table afterwards, whether or not the effect fails. -/
def after : Table := (exec (x.assignment.execute r) x.before).2

/-- The result, which is that of a failure if the effect fails. -/
def result : EffectResult :=
  (exec (x.assignment.execute r) x.before).1.toOption.getD x.assignment.failed

end Execution

/-- What is done to an activation. -/
inductive Deed where
  /-- An activation of some groups began. -/
  | began (groups : List Group) (source : Option Card) (t : Table)
  /-- Effects were queued that apply in a game. -/
  | queued (entries : List Pending) (g : GameState)
  /-- The player was asked for the targets of an effect. -/
  | asked (p : Pending) (q : TargetRequest)
  /-- An effect was handed its targets and was carried out. -/
  | carriedOut (p : Pending) (x : Handover) (y : Execution) (after : Table) (result : EffectResult)
  /-- An effect was handed its targets, but could not be measured. -/
  | faulted (p : Pending) (x : Handover)
  /-- An effect was passed over, because there was nothing to pick or nobody wanted to. -/
  | passedOver (p : Pending)
  /-- The activation completed. -/
  | completed (o : Outcome) (t : Table)
  deriving DecidableEq, Inhabited

namespace Deed

/-- Whether an activation began. -/
def isBegan : Deed → Bool
  | .began .. => true
  | _ => false

/-- Whether the activation completed. -/
def isCompleted : Deed → Bool
  | .completed .. => true
  | _ => false

/-- The effects that were queued. -/
def entries : Deed → List Pending
  | .queued entries _ => entries
  | _ => []

/-- The effect that was done with, and its result. -/
def settled? : Deed → Option (Pending × EffectResult)
  | .carriedOut p _ _ _ result => some (p, result)
  | .passedOver p => some (p, .failed p.effect.kind)
  | _ => none

/-- What was carried out. -/
def execution? : Deed → Option Execution
  | .carriedOut _ _ y _ _ => some y
  | _ => none

/-- What was handed to an effect. -/
def handover? : Deed → Option Handover
  | .carriedOut _ x _ _ _ => some x
  | .faulted _ x => some x
  | _ => none

/-- What observers are told of a deed. -/
def event? : Deed → Option Event
  | .began _ source _ => some (.started source)
  | .asked _ q => some (.targetRequired q)
  | .carriedOut p _ y _ result => some (.executed p.effect.kind y.assignment.magnitude result)
  | .passedOver p => some (.executed p.effect.kind p.speculative (.failed p.effect.kind))
  | .completed o _ => some (.completed o.source)
  | .queued .. | .faulted .. => none

/-- The effects that were queued in a history. -/
def queuedIn (h : List Deed) : List Pending := h.flatMap (·.entries)

/-- The effects that were done with in a history, with their results. -/
def settledIn (h : List Deed) : List (Pending × EffectResult) := h.filterMap (·.settled?)

/-- The results of the effects that were done with in a history. -/
def resultsIn (h : List Deed) : List EffectResult := (settledIn h).map (·.2)

/-- The effects that were carried out in a history. -/
def executionsIn (h : List Deed) : List Execution := h.filterMap (·.execution?)

@[simp]
theorem queuedIn_append (h k : List Deed) : queuedIn (h ++ k) = queuedIn h ++ queuedIn k :=
  List.flatMap_append

@[simp]
theorem queuedIn_singleton (d : Deed) : queuedIn [d] = d.entries := List.append_nil _

@[simp]
theorem settledIn_append (h k : List Deed) : settledIn (h ++ k) = settledIn h ++ settledIn k :=
  List.filterMap_append

@[simp]
theorem settledIn_singleton (d : Deed) : settledIn [d] = d.settled?.toList := by
  cases h : d.settled? <;> simp [settledIn, h]

@[simp]
theorem resultsIn_append (h k : List Deed) : resultsIn (h ++ k) = resultsIn h ++ resultsIn k := by
  simp only [resultsIn, settledIn_append, List.map_append]

@[simp]
theorem resultsIn_singleton (d : Deed) : resultsIn [d] = d.settled?.toList.map (·.2) := by
  simp only [resultsIn, settledIn_singleton]

@[simp]
theorem executionsIn_append (h k : List Deed) :
    executionsIn (h ++ k) = executionsIn h ++ executionsIn k := List.filterMap_append

end Deed

/-- Where the targets of an effect come from, given the request that is open and the table. Dice may
be thrown for them. -/
inductive Pending.Fetches (r : Rules) (p : Pending) (request : Option TargetRequest) (t : Table) :
    List Card → Table → Prop
  /-- The targets are collected without asking. -/
  | collected {targets : List Card} {u : Table} (hsel : p.effect.target.needsSelection = false)
      (hrequest : request = none)
      (h : exec (p.effect.autoTargets r p.source) t = (.ok targets, u)) :
      Fetches r p request t targets u
  /-- The first candidates are picked for the player, as many as may be picked. -/
  | picked (hsel : p.effect.target.needsSelection = true) (hrequest : request = none)
      (hauto : r.config.autoSelect = true) :
      Fetches r p request t ((p.effect.selectable r t.game).take
        (p.effect.request (p.effect.selectable r t.game)).maxSelections.toNat) t
  /-- An answer to the request selects the targets. -/
  | answered {q : TargetRequest} {ids : List String} {targets : List Card}
      (hrequest : request = some q) (h : Engine.selected q ids = .ok targets) :
      Fetches r p request t targets t

/-- Fetching targets throws dice at most. -/
theorem Pending.Fetches.rolled {r : Rules} {p : Pending} {request : Option TargetRequest}
    {t u : Table} {targets : List Card} (h : p.Fetches r request t targets u) : t.Rolled u := by
  cases h with
  | collected _ _ h =>
    have hrolled := Table.Rolled.autoTargets p.effect r p.source t
    rwa [h] at hrolled
  | picked => exact Std.Refl.refl t
  | answered => exact Std.Refl.refl t

/-- So does working out the magnitude after that. -/
theorem Pending.Fetches.rolled_magnitude {r : Rules} {p : Pending} {request : Option TargetRequest}
    {t u v : Table} {targets : List Card} {results : ResultStack} {done : Except Fault Int}
    (h : p.Fetches r request t targets u)
    (hmagnitude : exec (p.magnitude r targets results) u = (done, v)) : t.Rolled v := by
  have hrolled := p.keeps_magnitude r targets results u
  rw [hmagnitude] at hrolled
  exact IsTrans.trans t u v h.rolled hrolled

/-- What is handed to an effect if its targets are fetched where the machine stands. -/
def Machine.handover (m : Machine) (p : Pending) (targets : List Card) : Handover where
  effect := p.effect
  source := m.source
  targets
  game := m.table.game
  dice := m.table.dice

/-- A machine between two deeds. -/
structure Scene where
  /-- The machine. -/
  machine : Machine
  /-- The groups of an activation that began and has not queued its effects yet. -/
  opening : Option (List Group) := none

namespace Scene

/-- The deeds that a machine allows where it stands. Steps without a deed change nothing of the
activation. -/
inductive Step (r : Rules) : Scene → Option Deed → Scene → Prop
  /-- The phase changes, or the observers and what they keep. -/
  | aside (m : Machine) (opening : Option (List Group)) (phase : Phase)
      (observers : List Observer) (record : List Event) (reports : List Report) :
      Step r ⟨m, opening⟩ none ⟨{ m with phase, observers, record, reports }, opening⟩
  /-- Dice are thrown. -/
  | rolled (m : Machine) (opening : Option (List Group)) {t : Table} (h : m.table.Rolled t) :
      Step r ⟨m, opening⟩ none ⟨{ m with table := t }, opening⟩
  /-- A host means a card by its id. -/
  | named (m : Machine) (opening : Option (List Group)) (id : String) :
      Step r ⟨m, opening⟩ none
        ⟨{ m with table := { m.table with game := (m.table.game.cardNamed id).2 } }, opening⟩
  /-- The request is closed without an effect. -/
  | closed (m : Machine) : Step r ⟨m, none⟩ none ⟨{ m with request := none }, none⟩
  /-- An activation begins, whatever was in flight. -/
  | began (m : Machine) (opening : Option (List Group)) (groups : List Group)
      (source : Option Card) :
      Step r ⟨m, opening⟩ (some (.began groups source m.table))
        ⟨{ m with activation := m.activation + 1, queue := [], results := {}, current := none,
                  request := none, source }, some groups⟩
  /-- The activation that began queues effects of its groups, once; not all of them if it fails. -/
  | queued (m : Machine) (groups : List Group) (entries : List Pending)
      (h : entries.map (·.effect) <+: groups.flatMap (·.chosen r m.table.game m.results))
      (hsource : ∀ p ∈ entries, p.source = m.source) :
      Step r ⟨m, some groups⟩ (some (.queued entries m.table.game))
        ⟨{ m with queue := m.queue ++ entries }, none⟩
  /-- The first effect of the queue is taken in work. -/
  | taken (m : Machine) {p : Pending} {rest : List Pending} (hqueue : m.queue = p :: rest)
      (hcurrent : m.current = none) (hrequest : m.request = none) :
      Step r ⟨m, none⟩ none ⟨{ m with queue := rest, current := some p }, none⟩
  /-- The player is asked for the targets of the effect in work. -/
  | asked (m : Machine) {p : Pending} (hcurrent : m.current = some p)
      (hsel : p.effect.target.needsSelection = true) :
      Step r ⟨m, none⟩
        (some (.asked p (p.effect.request (p.effect.selectable r m.table.game))))
        ⟨{ m with request := some (p.effect.request (p.effect.selectable r m.table.game)) }, none⟩
  /-- The effect in work is handed its targets and is carried out. -/
  | carriedOut (m : Machine) {p : Pending} {targets : List Card} {t u : Table} {magnitude : Int}
      {y : Execution} (hcurrent : m.current = some p)
      (hfetched : p.Fetches r m.request m.table targets t)
      (hmagnitude : exec (p.magnitude r targets m.results) t = (.ok magnitude, u))
      (hy : y = ⟨{ effect := p.effect, magnitude, results := m.results, targets }, u⟩) :
      Step r ⟨m, none⟩
        (some (.carriedOut p (m.handover p targets) y (y.after r) (y.result r)))
        ⟨{ m with table := y.after r, results := m.results.push (y.result r), current := none,
                  request := none }, none⟩
  /-- The effect in work is handed its targets, but cannot be measured. -/
  | faulted (m : Machine) {p : Pending} {targets : List Card} {t u : Table} {f : Fault}
      (hcurrent : m.current = some p) (hfetched : p.Fetches r m.request m.table targets t)
      (hmagnitude : exec (p.magnitude r targets m.results) t = (.error f, u)) :
      Step r ⟨m, none⟩ (some (.faulted p (m.handover p targets)))
        ⟨{ m with table := u, request := none }, none⟩
  /-- The effect in work is passed over. -/
  | passedOver (m : Machine) {p : Pending} (hcurrent : m.current = some p)
      (hrequest : m.request = none) :
      Step r ⟨m, none⟩ (some (.passedOver p))
        ⟨{ m with results := m.results.push (.failed p.effect.kind), current := none }, none⟩
  /-- The activation completes when no effect is left. -/
  | completed (m : Machine) (hphase : m.phase = .completed) (hqueue : m.queue = [])
      (hcurrent : m.current = none) (hrequest : m.request = none) :
      Step r ⟨m, none⟩ (some (.completed m.outcome m.table))
        ⟨{ m with queue := [], results := {}, current := none, source := none }, none⟩

/-- A history: the deeds on the way from one scene to another. -/
abbrev Path (r : Rules) : Scene → List Deed → Scene → Prop := Journey (Step r)

end Scene

/-- An effect is carried out on what it was handed, with the magnitude that counts then, and what
comes of it is what carrying it out does. -/
def Deed.Authoritative (r : Rules) : Deed → Prop
  | .carriedOut p x y after result =>
    x.effect = p.effect ∧ y.assignment.effect = p.effect ∧ y.assignment.targets = x.targets ∧
      (∃ t : Table, t.game = x.game ∧ exec (p.magnitude r x.targets y.assignment.results) t =
        (.ok y.assignment.magnitude, y.before)) ∧
      after = y.after r ∧ result = y.result r
  | _ => True

/-- Effects are carried out with the magnitude that counts. -/
theorem Scene.Step.authoritative {r : Rules} {s s' : Scene} {d : Deed}
    (hstep : Scene.Step r s (some d) s') : d.Authoritative r := by
  cases hstep with
  | @carriedOut m p targets t u magnitude y hcurrent hfetched hmagnitude hy =>
    subst hy
    obtain ⟨dice, rfl⟩ := hfetched.rolled
    exact ⟨rfl, rfl, rfl, ⟨{ m.table with dice }, rfl, hmagnitude⟩, rfl, rfl⟩
  | _ => trivial

end Treasury
