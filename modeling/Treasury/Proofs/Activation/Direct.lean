import Treasury.Activation.Engine
import Treasury.Proofs.Play

/-!
# Activations without a machine

What an activation comes to, said without queues, phases and calls: `activate` picks the effects of
all groups first and then goes through them, given all answers of the player in advance.

* `speculate` draws the magnitudes that the effects are queued with, `collect` asks for the targets
  of an effect and `carryOut` carries it out on them, and `interpret` goes through the effects in
  order.
* `interpret` stops where it runs out of answers. `interpret_append` says that it goes on from there
  with further answers as if it had been given them all at once.
-/

namespace Treasury

/-- What the player says to a request. -/
inductive Answer where
  /-- Picks cards by their instance ids. -/
  | pick (ids : List String)
  /-- Passes the effect over. -/
  | pass
  deriving DecidableEq, Repr, Inhabited

/-- How far the effects of an activation got with the answers that they were given. -/
inductive Progress where
  /-- All of them are done. -/
  | finished (results : ResultStack)
  /-- The first of those left waits for an answer to the request. -/
  | waiting (results : ResultStack) (request : TargetRequest) (left : List (Effect × Int))
  /-- An answer is not one to its request. -/
  | refused (error : SelectionError)
  /-- There are more answers than requests. -/
  | unasked
  deriving Inhabited

/-- What came of the question for the targets of an effect, with the answers that are left. -/
inductive Collected where
  /-- The effect acts on these cards. -/
  | targets (cs : List Card) (answers : List Answer)
  /-- There is nothing to pick, or the effect is passed over. -/
  | nothing (answers : List Answer)
  /-- The request has no answer yet. -/
  | waiting (request : TargetRequest)
  /-- The answer is not one to the request. -/
  | refused (error : SelectionError)
  deriving Inhabited

namespace Direct

variable (r : Rules)

/-- The effects of all groups that apply in a state. -/
def chosen (g : GameState) (groups : List Group) : List Effect :=
  groups.flatMap (·.chosen r g {})

/-- Effects with their magnitudes as they are now, drawn one after another. -/
def speculate : List Effect → Play (List (Effect × Int))
  | [] => pure []
  | e :: rest => do
    let value ← e.magnitude r {} []
    let more ← speculate rest
    return (e, value) :: more

/-- Carries an effect out on targets. If that fails, its result is that of a failed effect. -/
def carryOut (e : Effect) (targets : List Card) (results : ResultStack) : Play EffectResult := do
  let magnitude ← e.magnitude r results targets
  let a : Assignment := { effect := e, magnitude, results, targets }
  tryCatch (a.execute r) fun _ => pure a.failed

/-- Asks for the targets of an effect, the player if it is for the player to pick them. -/
def collect (source : Option Card) (e : Effect) (answers : List Answer) : Play Collected := do
  if e.target.needsSelection then
    let g ← Play.game
    let candidates := e.selectable r g
    let request := e.request candidates
    if candidates.isEmpty then return .nothing answers
    else if r.config.autoSelect then
      return .targets (candidates.take request.maxSelections.toNat) answers
    else
      match answers with
      | [] => return .waiting request
      | .pass :: answers => return .nothing answers
      | .pick ids :: answers =>
        match Engine.selected request ids with
        | .error error => return .refused error
        | .ok cs => return .targets cs answers
  else
    let cs ← e.autoTargets r source
    return .targets cs answers

/-- Goes through effects in order, with the answers to their requests. -/
def interpret (source : Option Card) :
    List (Effect × Int) → List Answer → ResultStack → Play Progress
  | [], [], results => return .finished results
  | [], _ :: _, _ => return .unasked
  | (e, value) :: rest, answers, results => do
    match ← collect r source e answers with
    | .targets cs answers =>
      let result ← carryOut r e cs results
      interpret source rest answers (results.push result)
    | .nothing answers => interpret source rest answers (results.push (.failed e.kind))
    | .waiting request => return .waiting results request ((e, value) :: rest)
    | .refused error => return .refused error

/-- The whole activation: all groups see the game as it is before any effect is carried out. -/
def activate (groups : List Group) (source : Option Card) (answers : List Answer) :
    Play Progress := do
  let g ← Play.game
  let effects ← speculate r (chosen r g groups)
  interpret r source effects answers {}

/-- Goes on with further answers from where there was none left. -/
def goOn (source : Option Card) : List Answer → Progress → Play Progress
  | [], p => return p
  | answers, .waiting results _ left => interpret r source left answers results
  | _, .finished _ => return .unasked
  | _, p => return p

variable {r}

/-- Magnitudes drawn in two parts are drawn in order. -/
theorem speculate_append (effects more : List Effect) :
    speculate r (effects ++ more) = do
      let entries ← speculate r effects
      let moreEntries ← speculate r more
      return entries ++ moreEntries := by
  induction effects with
  | nil => simp [speculate]
  | cons e rest ih => simp [speculate, ih]

/-- Drawing magnitudes leaves the game. -/
theorem game_speculate (effects : List Effect) (t : Table) :
    (exec (speculate r effects) t).2.game = t.game := by
  have hkept : Keeps Table.Rolled (speculate r effects) := by
    induction effects with
    | nil => exact Keeps.pure _
    | cons e rest ih =>
      exact Keeps.bind (Table.Rolled.magnitude e r _ _) fun _ => Keeps.bind ih fun _ => Keeps.pure _
  obtain ⟨dice, h⟩ := hkept t
  rw [h]

/-- Answers may come in parts: without an answer the effects wait, and go on when there is one. -/
theorem interpret_append (source : Option Card) (effects : List (Effect × Int))
    (answers more : List Answer) (results : ResultStack) :
    interpret r source effects (answers ++ more) results =
      interpret r source effects answers results >>= goOn r source more := by
  induction effects generalizing answers results with
  | nil => cases answers <;> cases more <;> rfl
  | cons head rest ih =>
    obtain ⟨e, value⟩ := head
    -- Effects wait at a state of the table, so the two sides are compared state by state.
    refine exec_ext fun t => ?_
    unfold interpret collect
    by_cases hsel : e.target.needsSelection = true
    · simp only [hsel, if_true, bind_assoc, Play.exec_game_bind]
      by_cases hnone : (e.selectable r t.game).isEmpty = true
      · simp only [hnone, if_true, pure_bind, ih]
      · by_cases hauto : r.config.autoSelect = true
        · simp only [hnone, hauto, if_true, if_false, Bool.false_eq_true, pure_bind, bind_assoc, ih]
        · simp only [hnone, hauto, if_false, Bool.false_eq_true]
          -- Only here is an answer used up, or the effects wait because there is none.
          rcases answers with _ | ⟨ids | _, answers⟩
          · cases more with
            | nil => rfl
            | cons a more =>
              -- The left side takes the answer at once; the right side waits and asks again.
              simp only [List.nil_append, pure_bind, goOn, interpret, collect, hsel, if_true,
                bind_assoc, Play.exec_game_bind, hnone, hauto, if_false, Bool.false_eq_true]
          · simp only [List.cons_append]
            cases Engine.selected (e.request (e.selectable r t.game)) ids with
            | error error => cases more <;> rfl
            | ok cs => simp only [pure_bind, bind_assoc, ih]
          · simp only [List.cons_append, pure_bind, ih]
    · simp only [hsel, if_false, Bool.false_eq_true, pure_bind, bind_assoc, ih]

/-- Answers may be given one by one. -/
theorem goOn_cons (source : Option Card) (a : Answer) (more : List Answer) (p : Progress) :
    goOn r source (a :: more) p = goOn r source [a] p >>= goOn r source more := by
  cases p with
  | waiting results request left => exact interpret_append source left [a] more results
  | finished results => cases more <;> rfl
  | refused error => cases more <;> rfl
  | unasked => cases more <;> rfl

end Direct

end Treasury
