import Mathlib.Algebra.Order.Ring.Int
import Treasury.Proofs.Activation.Overtaking
import Treasury.Proofs.Execution.Headcount

/-!
# The ledger of cards

While an activation is worked off, cards are made and destroyed by its effects and by nothing else,
and the results say how many. So the number of cards when it completes is the number when it began,
plus the cards made, minus the cards destroyed and those of units that died.

* `Scene.Path.headcount_eq` is the ledger of any stretch of a history, deed by deed.
* `headcount_of_completed` is the statement for the activations that complete in the calls of a host
  and in what is done inside them.
-/

namespace Treasury

open Deed (queuedIn settledIn resultsIn)

namespace Deed

/-- How many cards more there are by the result of a deed. -/
def gain : Deed → Int
  | .carriedOut _ _ _ _ result => result.gain
  | _ => 0

/-- How many cards are gone because a unit died. -/
def buried : Deed → Nat
  | .carriedOut p _ y after _ =>
    if p.effect.kind = .known .removeUnit then y.before.buried after else 0
  | _ => 0

/-- How many cards more there are by the results of a history. -/
def gainIn (h : List Deed) : Int := (h.map gain).sum

/-- How many cards are gone in a history because units died. -/
def buriedIn (h : List Deed) : Nat := (h.map buried).sum

@[simp]
theorem gainIn_append (h k : List Deed) : gainIn (h ++ k) = gainIn h + gainIn k := by
  simp [gainIn]

@[simp]
theorem buriedIn_append (h k : List Deed) : buriedIn (h ++ k) = buriedIn h + buriedIn k := by
  simp [buriedIn]

/-- Only effects that were carried out have results that count cards. -/
theorem gainIn_eq_sum (h : List Deed) : gainIn h = ((resultsIn h).map (·.gain)).sum := by
  induction h with
  | nil => rfl
  | cons d h ih =>
    rw [← List.singleton_append, gainIn_append, resultsIn_append, List.map_append, List.sum_append,
      ih]
    congr 1
    -- An effect that is passed over has a result, but that of a failure.
    cases d <;> simp [gainIn, gain, settled?, Assignment.gain_failed]

end Deed

open Deed (gainIn buriedIn)

/-- An effect that was carried out changed the number of cards as its result says, or by the cards
of a unit that died, and its result is of its own kind. -/
def Deed.Balanced : Deed → Prop
  | .carriedOut p _ y after result =>
    result.kind = p.effect.kind ∧
      (after.headcount : Int) +
          (if p.effect.kind = .known .removeUnit then y.before.buried after else 0) =
        y.before.headcount + result.gain
  | _ => True

variable {r : Rules} {s s' : Scene}

/-- Where an effect is carried out, the ledger balances. -/
theorem Scene.Step.balanced {d : Deed} (hstep : Scene.Step r s (some d) s') : d.Balanced := by
  cases hstep with
  | carriedOut _ _ _ _ hy =>
    subst hy
    exact ⟨Assignment.kind_of_result _ r _, Assignment.headcount_execute _ r _⟩
  | _ => trivial

/-- A card that a host means by its id is not put on the table. -/
theorem GameState.zones_cardNamed (g : GameState) (id : String) :
    (g.cardNamed id).2.zones = g.zones := by
  unfold GameState.cardNamed
  dsimp only
  split <;> rfl

/-- Throwing dice moves no cards. -/
theorem Table.Rolled.headcount_eq {t u : Table} (h : t.Rolled u) : u.headcount = t.headcount := by
  obtain ⟨dice, rfl⟩ := h
  rfl

/-- Between its effects, nothing changes the number of cards. -/
theorem Scene.Step.headcount_eq {d : Option Deed} (hstep : Scene.Step r s d s') :
    (s'.machine.table.headcount : Int) + buriedIn d.toList =
      s.machine.table.headcount + gainIn d.toList := by
  cases hstep with
  | carriedOut m hcurrent hfetched hmagnitude hy =>
    -- Before the effect, dice are thrown for its targets and for its magnitude.
    have hbalanced := (Scene.Step.carriedOut m hcurrent hfetched hmagnitude hy).balanced.2
    subst hy
    rw [(hfetched.rolled_magnitude hmagnitude).headcount_eq] at hbalanced
    simpa [buriedIn, gainIn, Deed.buried, Deed.gain] using hbalanced
  | faulted m hcurrent hfetched hmagnitude =>
    rw [(hfetched.rolled_magnitude hmagnitude).headcount_eq]
    rfl
  | rolled m opening hrolled =>
    rw [hrolled.headcount_eq]
    rfl
  | named m opening id =>
    unfold Table.headcount
    rw [GameState.zones_cardNamed]
    rfl
  | _ => rfl

/-- Along a history, the number of cards changes by what its results say and by the cards of units
that died. -/
theorem Scene.Path.headcount_eq {h : List Deed} (hpath : Scene.Path r s h s') :
    (s'.machine.table.headcount : Int) + buriedIn h = s.machine.table.headcount + gainIn h := by
  induction hpath with
  | refl => rfl
  | snoc _ hstep ih =>
    have hone := hstep.headcount_eq
    rw [Deed.buriedIn_append, Deed.gainIn_append]
    omega

theorem Scene.Path.balanced {h : List Deed} (hpath : Scene.Path r s h s') :
    ∀ d ∈ h, d.Balanced := hpath.forall_label Scene.Step.balanced

/-- An activation that completes, cut out of its history: it goes from the table on which it began
to the one on which it completes, all that it queued is done with, and its results are those of its
effects. -/
theorem Scene.Path.exists_of_completed {earlier since later : List Deed} {groups : List Group}
    {source : Option Card} {before after : Table} {o : Outcome}
    (hpath : Scene.Path r s
      (earlier ++ .began groups source before :: (since ++ .completed o after :: later)) s')
    (hsince : ∀ d ∈ since, d.isBegan = false) :
    ∃ s₁ s₂, Scene.Path r s₁ since s₂ ∧ s₁.machine.table = before ∧ s₂.machine.table = after ∧
      queuedIn since = (settledIn since).map (·.1) ∧
      ((∀ d ∈ since, d.isCompleted = false) → o.results = resultsIn since) := by
  obtain ⟨s₁, s₂, s₃, s₄, hbegan, hwork, hcompleted⟩ := hpath.exists_of_between
  have hserves := (Scene.Serves.of_began hbegan).path hwork hsince
  obtain ⟨hqueued, hresults⟩ := hserves.fits hcompleted
  have hbefore : s₂.machine.table = before := by
    cases hbegan
    rfl
  have hafter : s₃.machine.table = after := by
    cases hcompleted
    rfl
  exact ⟨s₂, s₃, hwork, hbefore, hafter, hqueued, fun hactive => hresults (by simpa using hactive)⟩

/-- Whatever calls a host makes, and whatever calls observers make inside them, their deeds are
known. When an activation completes, its results are those of its effects, and the number of cards
is that when it began, plus the cards that its results count as made, minus those that they count as
destroyed and those of the units that died. Every effect of it accounts for the difference that it
makes. -/
theorem headcount_of_completed (r : Rules) (m : Machine) (cs : List HostCall) :
    m.DoesAll r cs (m.deeds r cs) ∧
      ∀ earlier groups source before since o after later,
        m.deeds r cs =
            earlier ++ .began groups source before :: (since ++ .completed o after :: later) →
          (∀ d ∈ since, d.isBegan = false ∧ d.isCompleted = false) →
            o.results = resultsIn since ∧
              (after.headcount : Int) + buriedIn since =
                before.headcount + (o.results.map (·.gain)).sum ∧
              ∀ d ∈ since, d.Balanced := by
  refine ⟨m.doesAll_deeds cs, ?_⟩
  intro earlier groups source before since o after later hdeeds hsince
  obtain ⟨s₁, s₂, hall, rfl, rfl, -, hresults⟩ :=
    (Machine.path_of_deeds_eq hdeeds).exists_of_completed fun d hd => (hsince d hd).1
  replace hresults := hresults fun d hd => (hsince d hd).2
  refine ⟨hresults, ?_, hall.balanced⟩
  rw [hresults, ← Deed.gainIn_eq_sum]
  exact hall.headcount_eq

end Treasury
