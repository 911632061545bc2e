import Treasury.Proofs.Activation.Evidence
import Treasury.Proofs.Activation.Taking

/-!
# What a run does to the game

Whatever calls a host makes, and whatever calls observers make inside them, all that happens to the
game is that effects are carried out, and none of them on targets that it does not take.

* `GameState.Deal`: an effect is carried out on targets that it takes, or a host means a card.
  `Dealings` are such effects one after another.
* `Machine.Asked`: a request is one for the effect in work. It is what makes an answer to it a
  choice of targets that this effect takes.
* `Scene.Step.deals` is what every step does: it keeps `Machine.Asked` and changes the game by such
  effects at most.
* `Machine.dealings_of_calls` is the statement for the calls of a host.
-/

namespace Treasury

open Deed (executionsIn)

/-- What may happen to the game. -/
inductive GameState.Deal (r : Rules) : GameState → Option Execution → GameState → Prop
  /-- A host means a card by its id. -/
  | named (g : GameState) (id : String) : Deal r g none (g.cardNamed id).2
  /-- An effect is carried out on targets that it takes. -/
  | carriedOut {x : Execution} {source : Option Card}
      (htakes : x.assignment.effect.Takes r source x.assignment.targets x.before.game) :
      Deal r x.before.game (some x) (x.after r).game

/-- Effects that are carried out on targets that they take, one after another, lead from one game to
another. Besides, hosts may mean cards by their ids. -/
abbrev Dealings (r : Rules) : GameState → List Execution → GameState → Prop :=
  Journey (GameState.Deal r)

/-- A request is one for the effect in work, made in some game. -/
def Machine.Asked (r : Rules) (m : Machine) : Prop :=
  ∀ q, m.request = some q → ∃ p asked, m.current = some p ∧
    p.effect.target.needsSelection = true ∧ q = p.effect.request (p.effect.selectable r asked)

/-- What is fetched for the effect in work is what it takes. -/
theorem Machine.Asked.takes {r : Rules} {m : Machine} {p : Pending} {targets : List Card}
    {t : Table} (hasked : m.Asked r) (hcurrent : m.current = some p)
    (h : p.Fetches r m.request m.table targets t) :
    p.effect.Takes r p.source targets m.table.game := by
  cases h with
  | collected hsel _ h => exact .collected hsel rfl (congrArg Prod.fst h)
  | picked hsel => exact .picked hsel m.table.game fun c hc => List.mem_of_mem_take hc
  | answered hrequest h =>
    obtain ⟨p', asked, hcurrent', hsel, rfl⟩ := hasked _ hrequest
    obtain rfl : p' = p := Option.some.inj (hcurrent'.symm.trans hcurrent)
    exact .picked hsel asked fun c hc => (Engine.mem_of_selected h hc).1

namespace Scene

variable {r : Rules} {s s' : Scene}

/-- Every step carries an effect out on targets that it takes, or leaves the game; and a request
stays one for the effect in work. -/
theorem Step.deals {d : Option Deed} (hstep : Step r s d s') (hasked : s.machine.Asked r) :
    s'.machine.Asked r ∧
      Dealings r s.machine.table.game (executionsIn d.toList) s'.machine.table.game := by
  cases hstep with
  | aside | queued => exact ⟨hasked, .refl _⟩
  | closed | began => exact ⟨fun q hq => (nomatch hq), .refl _⟩
  | rolled m _ hrolled =>
    obtain ⟨dice, rfl⟩ := hrolled
    exact ⟨hasked, .refl _⟩
  | named m _ id => exact ⟨hasked, .of_step (GameState.Deal.named m.table.game id)⟩
  | taken m _ _ hrequest | passedOver m _ hrequest | completed m _ _ _ hrequest =>
    exact ⟨fun q hq => absurd (hq.symm.trans hrequest) (Option.some_ne_none q), .refl _⟩
  | @asked m p hcurrent hsel =>
    refine ⟨?_, .refl _⟩
    rintro _ ⟨⟩
    exact ⟨p, m.table.game, hcurrent, hsel, rfl⟩
  | @carriedOut m p targets t u magnitude y hcurrent hfetched hmagnitude hy =>
    have htakes := hasked.takes hcurrent hfetched
    -- Between the request and the effect only dice were thrown, which the game knows nothing of.
    obtain ⟨dice, rfl⟩ := hfetched.rolled_magnitude hmagnitude
    subst hy
    let x : Execution :=
      ⟨{ effect := p.effect, magnitude, results := m.results, targets }, { m.table with dice }⟩
    have hdealt : Dealings r m.table.game [x] (x.after r).game :=
      .of_step (GameState.Deal.carriedOut (x := x) htakes)
    exact ⟨fun q hq => (nomatch hq), hdealt⟩
  | faulted m hcurrent hfetched hmagnitude =>
    obtain ⟨dice, rfl⟩ := hfetched.rolled_magnitude hmagnitude
    exact ⟨fun q hq => (nomatch hq), .refl _⟩

/-- So does a whole history. -/
theorem Path.deals {h : List Deed} (hpath : Path r s h s') (hasked : s.machine.Asked r) :
    s'.machine.Asked r ∧
      Dealings r s.machine.table.game (executionsIn h) s'.machine.table.game := by
  induction hpath with
  | refl => exact ⟨hasked, .refl _⟩
  | snoc _ hstep ih =>
    obtain ⟨hmiddle, hfirst⟩ := ih
    obtain ⟨hlast, hrest⟩ := hstep.deals hmiddle
    rw [Deed.executionsIn_append]
    exact ⟨hlast, hfirst.trans hrest⟩

end Scene

/-- Whatever calls a host makes, and whatever calls observers make inside them, all that happens to
the game is that effects are carried out on targets that they take, if the machine does not wait for
an answer to a strange request. -/
theorem Machine.dealings_of_calls {r : Rules} (m : Machine) (hasked : m.Asked r)
    (cs : List HostCall) :
    Dealings r m.table.game (executionsIn (m.deeds r cs)) (m.afterCalls r cs).table.game :=
  ((m.doesAll_deeds cs).path.deals hasked).2

end Treasury
