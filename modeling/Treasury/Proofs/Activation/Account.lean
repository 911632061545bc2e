import Treasury.Proofs.Activation.Ledger
import Treasury.Proofs.Execution.Purse

/-!
# The account of gold

While an activation is worked off on a table where gains are paid plainly, the results of its
effects say where the gold came from and where it went: final gold is what there was when it began,
plus what the results say was earned, minus what they say was spent.

* `Scene.Pays` is the account of a stretch of a history, deed by deed, and `Scene.Path.pays` says
  that every stretch has one.
* `gold_of_completed` is the statement for the activations that complete in the calls of a host and
  in what is done inside them.
-/

namespace Treasury

open Deed (queuedIn settledIn resultsIn)

/-- An effect that was carried out changed the gold as its result says, and its result is of its own
kind. -/
def Deed.Accounted : Deed → Prop
  | .carriedOut p _ y after result =>
    result.kind = p.effect.kind ∧
      after.game.gold = y.before.game.gold + result.earned - result.spent
  | _ => True

/-- The effect leaves the way in which gains are paid as it is. -/
def Effect.KeepsRates (e : Effect) : Prop :=
  e.kind ≠ .known .goldMultiplier ∧ e.kind ≠ .known .goldBonus

/-- The gold that was earned, by a list of results. -/
def earned (results : List EffectResult) : Int := (results.map (·.earned)).sum

/-- The gold that was spent, by a list of results. -/
def spent (results : List EffectResult) : Int := (results.map (·.spent)).sum

@[simp]
theorem earned_nil : earned [] = 0 := rfl

@[simp]
theorem spent_nil : spent [] = 0 := rfl

@[simp]
theorem earned_append (xs ys : List EffectResult) : earned (xs ++ ys) = earned xs + earned ys := by
  simp [earned]

@[simp]
theorem spent_append (xs ys : List EffectResult) : spent (xs ++ ys) = spent xs + spent ys := by
  simp [spent]

namespace Scene

variable {r : Rules} {s s' : Scene}

/-- What is done to the gold on the way from one scene to another, if gains are paid plainly on
it. -/
structure Pays (s : Scene) (h : List Deed) (s' : Scene) : Prop where
  /-- Gains are still paid plainly. -/
  plain : s'.machine.table.game.PaysPlainly
  /-- The gold changes by what the results say. -/
  gold_eq : s'.machine.table.game.gold = s.machine.table.game.gold +
    earned (resultsIn h) - spent (resultsIn h)
  /-- An effect that is carried out accounts for the change. -/
  accounted : ∀ d ∈ h, d.Accounted

namespace Pays

/-- Where the purse is left alone and nothing is earned or spent, there is nothing to account
for. -/
theorem of_purse_eq {h : List Deed} (hplain : s.machine.table.game.PaysPlainly)
    (hpurse : s'.machine.table.game.purse = s.machine.table.game.purse)
    (hearned : earned (resultsIn h) = 0) (hspent : spent (resultsIn h) = 0)
    (hd : ∀ d ∈ h, d.Accounted) : Pays s h s' where
  plain := hplain.of_purse_eq hpurse
  gold_eq := by
    rw [hearned, hspent, GameState.gold_of_purse_eq hpurse]
    omega
  accounted := hd

/-- A step without a deed leaves the purse. -/
theorem of_silent (hplain : s.machine.table.game.PaysPlainly)
    (hpurse : s'.machine.table.game.purse = s.machine.table.game.purse) : Pays s [] s' :=
  of_purse_eq hplain hpurse earned_nil spent_nil fun _ hd => (nomatch hd)

theorem trans {s'' : Scene} {h k : List Deed} (hfirst : Pays s h s') (hrest : Pays s' k s'') :
    Pays s (h ++ k) s'' where
  plain := hrest.plain
  gold_eq := by
    rw [hrest.gold_eq, hfirst.gold_eq, Deed.resultsIn_append, earned_append, spent_append]
    omega
  accounted d hd := (List.mem_append.mp hd).elim (hfirst.accounted d) (hrest.accounted d)

end Pays

/-- What an effect that keeps the rates does to the gold is in its result. -/
theorem Step.pays {d : Option Deed} (hstep : Step r s d s')
    (h : s.machine.table.game.PaysPlainly)
    (hrates : ∀ p ∈ (settledIn d.toList).map (·.1), p.effect.KeepsRates) : Pays s d.toList s' := by
  cases hstep with
  | @carriedOut m p targets t u magnitude y hcurrent hfetched hmagnitude hy =>
    have hp : p.effect.KeepsRates := hrates p (by simp [Deed.settled?])
    have hmodifies : ∀ kind, p.effect.kind = .known kind → kind.modifiesGains = false := by
      intro kind hkind
      cases kind
      case goldMultiplier => exact absurd hkind hp.1
      case goldBonus => exact absurd hkind hp.2
      all_goals rfl
    subst hy
    let a : Assignment := { effect := p.effect, magnitude, results := m.results, targets }
    -- Before the effect, dice are thrown for its targets and for its magnitude.
    have hpurse := (hfetched.rolled_magnitude hmagnitude).purse_eq
    obtain ⟨hplain, hgold⟩ := a.execute_accounts r u hmodifies (h.of_purse_eq hpurse)
    refine ⟨hplain, ?_, ?_⟩
    · rw [← GameState.gold_of_purse_eq hpurse]
      simpa [Deed.settled?, earned, spent, Execution.after, Execution.result] using hgold
    · simpa [Deed.Accounted] using ⟨a.kind_of_result r u, hgold⟩
  | passedOver m hcurrent =>
    exact .of_purse_eq h rfl (by simp [Deed.settled?, earned]) (by simp [Deed.settled?, spent])
      (by simp [Deed.Accounted])
  | rolled m opening hrolled => exact .of_silent h hrolled.purse_eq
  | faulted m hcurrent hfetched hmagnitude =>
    exact .of_purse_eq h (hfetched.rolled_magnitude hmagnitude).purse_eq earned_nil spent_nil
      (by simp [Deed.Accounted])
  | named m opening id =>
    obtain ⟨n, hn⟩ := m.table.game.exists_snd_cardNamed id
    refine .of_silent h ?_
    show (m.table.game.cardNamed id).2.purse = m.table.game.purse
    rw [hn]
    rfl
  | aside => exact .of_silent h rfl
  | closed => exact .of_silent h rfl
  | taken => exact .of_silent h rfl
  | began | queued | asked | completed =>
    exact .of_purse_eq h rfl earned_nil spent_nil (by simp [Deed.Accounted])

/-- Along a history whose effects keep the rates, the gold changes by what the results say. -/
theorem Path.pays {h : List Deed} (hpath : Path r s h s')
    (hplain : s.machine.table.game.PaysPlainly)
    (hrates : ∀ p ∈ (settledIn h).map (·.1), p.effect.KeepsRates) : Pays s h s' := by
  induction hpath with
  | refl => exact .of_silent hplain rfl
  | snoc _ hstep ih =>
    simp only [Deed.settledIn_append, List.map_append, List.mem_append] at hrates
    have hfirst := ih fun p hp => hrates p (.inl hp)
    exact hfirst.trans (hstep.pays hfirst.plain fun p hp => hrates p (.inr hp))

end Scene

/-- Whatever calls a host makes, and whatever calls observers make inside them, their deeds are
known. When an activation completes that began with the multiplier one and without a bonus, and that
queued no effect on either, its results are those of its effects, and the gold is that when it
began, plus what its results say was earned, minus what they say was spent. Every effect of it
accounts for the difference that it makes. -/
theorem gold_of_completed (r : Rules) (m : Machine) (cs : List HostCall) :
    m.DoesAll r cs (m.deeds r cs) ∧
      ∀ earlier groups source before since o after later,
        m.deeds r cs =
            earlier ++ .began groups source before :: (since ++ .completed o after :: later) →
          (∀ d ∈ since, d.isBegan = false ∧ d.isCompleted = false) →
            before.game.goldMultiplier = .one → before.game.goldBonus = 0 →
              (∀ p ∈ queuedIn since, p.effect.kind ≠ .known .goldMultiplier ∧
                p.effect.kind ≠ .known .goldBonus) →
                o.results = resultsIn since ∧
                  after.game.gold - before.game.gold = earned o.results - spent o.results ∧
                  ∀ d ∈ since, d.Accounted := by
  refine ⟨m.doesAll_deeds cs, ?_⟩
  intro earlier groups source before since o after later hdeeds hsince hmultiplier hbonus hrates
  obtain ⟨s₁, s₂, hwork, rfl, rfl, hqueued, hresults⟩ :=
    (Machine.path_of_deeds_eq hdeeds).exists_of_completed fun d hd => (hsince d hd).1
  replace hresults := hresults fun d hd => (hsince d hd).2
  have hpays := hwork.pays ⟨hmultiplier, hbonus⟩ fun p hp => hrates p (hqueued ▸ hp)
  refine ⟨hresults, ?_, hpays.accounted⟩
  rw [hpays.gold_eq, hresults]
  omega

/-- An activation adds five gold, and the account of it says so. -/
theorem gold_of_completed_of_five :
    let m : Machine :=
      { table := { game := {}, dice := { twister := { words := #[], used := 0 } } } }
    let groups := [Group.always [.gold 5]]
    let cs := [HostCall.start groups none]
    let last := m.afterCalls {} cs
    ∃ since o,
      m.deeds {} cs = .began groups none m.table :: (since ++ [.completed o last.table]) ∧
      (queuedIn since).map (·.effect) = [.gold 5] ∧ earned o.results = 5 ∧ spent o.results = 0 ∧
      last.table.game.gold - m.table.game.gold = earned o.results - spent o.results := by
  intro m groups cs last
  let p : Pending := { effect := .gold 5, speculative := 5, source := none }
  let five : Execution := ⟨{ effect := .gold 5, magnitude := 5 }, m.table⟩
  let since : List Deed :=
    [.queued [p] m.table.game,
      .carriedOut p (m.handover p []) five (five.after {}) (five.result {})]
  let o : Outcome :=
    { phase := .completed, results := [five.result {}], request := none, source := none }
  have hdeeds : m.deeds {} cs =
      .began groups none m.table :: (since ++ [.completed o last.table]) := by decide +kernel
  obtain ⟨-, hgold, -⟩ := (gold_of_completed {} m cs).2 [] groups none m.table since o last.table []
    hdeeds (by decide) rfl rfl (by decide)
  exact ⟨since, o, hdeeds, rfl, rfl, rfl, hgold⟩

end Treasury
