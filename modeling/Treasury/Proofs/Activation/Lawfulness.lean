import Treasury.Proofs.Activation.AutoSelection
import Treasury.Proofs.Activation.Ledger
import Treasury.Proofs.Activation.Taking

/-!
# Lawful targets

No effect is handed targets that it may not have, whichever way they are fetched and however long
the machine waited for them.

* `Handover.Lawful` says, for each kind of target, what an effect may be handed.
* `Machine.Orderly` is the invariant behind it: an open request is one for the effect in work and
  offers what could be picked now. Every step keeps it, as nothing but an effect moves cards, and an
  effect that is carried out closes the request.
* `Machine.lawful_of_calls`: whatever calls a host makes, and whatever calls observers make inside
  them, every effect is handed lawful targets. If the ids on the table tell cards apart, and random
  draws are from places that differ, no card is handed over twice.
-/

namespace Treasury

namespace Handover

/-- The targets are such as the effect may be handed in the game as it stands. -/
structure Lawful (r : Rules) (x : Handover) : Prop where
  /-- Targets that are picked are cards in hand, of the kind that is wanted. A permanent upgrade is
  handed no temporary cards. -/
  picked : x.effect.target.needsSelection = true → ∀ c ∈ x.targets,
    c ∈ x.game.zones.hand ∧ (∀ kind ∈ x.effect.target.wanted?, r.kindOf c = some kind) ∧
      (x.effect.kind = .known .permanentUpgrade → c.temporary = false)
  /-- No more targets are picked than may be. -/
  few : x.effect.target.needsSelection = true → 0 < x.effect.maxTargets →
    (x.targets.length : Int) ≤ x.effect.maxTargets
  /-- All treasures in hand, in hand order. -/
  treasures : x.effect.target = .allHandTreasure →
    x.targets = x.game.zones.hand.filter fun c => r.kindOf c = some .treasure
  /-- All pollution in hand, in hand order. -/
  pollution : x.effect.target = .allHandPollution →
    x.targets = x.game.zones.hand.filter fun c => r.kindOf c = some .pollution
  /-- Random targets are hand cards, as many as the effect takes, but at least one, or all that
  there are. -/
  random : x.effect.target = .random → (∀ c ∈ x.targets, c ∈ x.game.zones.hand) ∧
    (x.targets.length : Int) = min (max 1 x.effect.maxTargets) x.game.zones.hand.length
  /-- The top card of the deck, if there is one. -/
  deckTop : x.effect.target = .deckTop → x.targets = x.game.deckTop?.toList
  /-- The card that the activation came from, if there is one. -/
  self : x.effect.target = .self → x.targets = x.source.toList
  /-- No targets. -/
  none : x.effect.target = .none → x.targets = []

/-- If targets are drawn at random, they are drawn from places that differ. -/
def DrawsApart (x : Handover) : Prop :=
  x.effect.target = .random → ∀ ps, (x.dice.sample (List.finRange x.game.zones.hand.length)
    (x.effect.randomCount x.game.zones.hand.length)).1 = some ps → ps.Nodup

variable {r : Rules} {x : Handover}

/-- From a hand of at most 21 cards, targets are drawn from places that differ. -/
theorem drawsApart_of_length_le (h : x.game.zones.hand.length ≤ 21) : x.DrawsApart :=
  fun _ _ hps => Random.Dice.nodup_sample_of_length_le (List.nodup_finRange _)
    (by rwa [List.length_finRange]) hps

/-- Cards among those that can be picked now are lawful, if they are not too many. -/
theorem lawful_of_selectable (hsel : x.effect.target.needsSelection = true)
    (hmem : ∀ c ∈ x.targets, c ∈ x.effect.selectable r x.game)
    (hlength : (x.targets.length : Int) ≤
      (x.effect.request (x.effect.selectable r x.game)).maxSelections) : x.Lawful r where
  picked _ c hc := by
    refine ⟨Effect.mem_hand_of_mem_selectable (hmem c hc), fun kind hkind => ?_, fun hkind => ?_⟩
    · exact Effect.kindOf_of_mem_selectable hkind (hmem c hc)
    · exact Effect.temporary_eq_false_of_mem_selectable hkind (hmem c hc)
  few _ hpos := by
    change _ ≤ x.effect.selectionCap _ at hlength
    unfold Effect.selectionCap at hlength
    rwa [if_pos hpos] at hlength
  treasures htarget := by cases htarget ▸ hsel
  pollution htarget := by cases htarget ▸ hsel
  random htarget := by cases htarget ▸ hsel
  deckTop htarget := by cases htarget ▸ hsel
  self htarget := by cases htarget ▸ hsel
  none htarget := by cases htarget ▸ hsel

/-- Targets that are collected without asking are lawful. -/
theorem lawful_of_collected {t : Table} (hgame : t.game = x.game)
    (hsel : x.effect.target.needsSelection = false)
    (h : (exec (x.effect.autoTargets r x.source) t).1 = .ok x.targets) : x.Lawful r := by
  unfold Effect.autoTargets at h
  rw [Play.exec_game_bind, hgame] at h
  have hasked {P : Prop} (htrue : x.effect.target.needsSelection = true) : P := by
    cases hsel.symm.trans htrue
  refine ⟨hasked, hasked, ?_, ?_, ?_, ?_, ?_, ?_⟩ <;> intro htarget <;> rw [htarget] at h
  case refine_3 =>
    exact ⟨fun c => Effect.mem_hand_of_mem_randomTargets h, Effect.length_randomTargets h⟩
  all_goals exact (Except.ok.inj h).symm

end Handover

namespace Machine

/-- An open request is one for the effect in work and offers what could be picked now, and all
effects came from the card that the activation came from. -/
structure Orderly (r : Rules) (m : Machine) : Prop where
  /-- The request is for the effect in work. -/
  request : ∀ q, m.request = some q → ∃ p, m.current = some p ∧
    p.effect.target.needsSelection = true ∧
      q = p.effect.request (p.effect.selectable r m.table.game)
  /-- The effect in work came from the source. -/
  current : ∀ p, m.current = some p → p.source = m.source
  /-- The queue came from the source. -/
  queue : ∀ p ∈ m.queue, p.source = m.source

variable {r : Rules} {m m' : Machine}

/-- A machine that has nothing in flight is orderly. -/
theorem orderly_of_free (hqueue : m.queue = []) (hcurrent : m.current = none)
    (hrequest : m.request = none) : m.Orderly r where
  request := by simp [hrequest]
  current := by simp [hcurrent]
  queue := by simp [hqueue]

namespace Orderly

variable (h : m.Orderly r)

include h

/-- Where no card is moved, what could be picked stays. -/
theorem of_zones_eq {t : Table} (hzones : t.game.zones = m.table.game.zones) :
    Orderly r { m with table := t } where
  request q hq := by
    obtain ⟨p, hcurrent, hsel, rfl⟩ := h.request q hq
    exact ⟨p, hcurrent, hsel, by rw [Effect.selectable_congr hzones]⟩
  current := h.current
  queue := h.queue

/-- Where no effect is in work and no request is open, only the queue counts. -/
theorem of_done (hcurrent : m'.current = none) (hrequest : m'.request = none)
    (hqueue : m'.queue = m.queue) (hsource : m'.source = m.source) : m'.Orderly r where
  request := by simp [hrequest]
  current := by simp [hcurrent]
  queue := by
    rw [hqueue, hsource]
    exact h.queue

/-- Every step keeps a machine orderly. -/
theorem step {d : Option Deed} {s s' : Scene} (hs : s.machine = m) (hstep : Scene.Step r s d s') :
    s'.machine.Orderly r := by
  subst hs
  cases hstep with
  | aside => exact ⟨h.request, h.current, h.queue⟩
  -- These two change the table while a request may be open, but no card moves.
  | rolled m _ hrolled =>
    obtain ⟨dice, rfl⟩ := hrolled
    exact h.of_zones_eq rfl
  | named m _ id => exact h.of_zones_eq (GameState.zones_cardNamed _ id)
  | closed => exact ⟨fun _ hq => (Option.some_ne_none _ hq.symm).elim, h.current, h.queue⟩
  | began => exact orderly_of_free rfl rfl rfl
  | queued m _ _ _ hsource =>
    refine ⟨h.request, h.current, fun p hp => ?_⟩
    exact (List.mem_append.mp hp).elim (h.queue p) (hsource p)
  | @taken m p rest hqueue _ hrequest =>
    refine ⟨fun q hq => ?_, ?_, fun q hq => ?_⟩
    · exact (Option.some_ne_none q (hq.symm.trans hrequest)).elim
    · rintro _ ⟨⟩
      exact h.queue p (hqueue ▸ List.mem_cons_self)
    · exact h.queue q (hqueue ▸ List.mem_cons_of_mem p hq)
  | @asked m p hcurrent hsel =>
    refine ⟨?_, h.current, h.queue⟩
    rintro _ ⟨⟩
    exact ⟨p, hcurrent, hsel, rfl⟩
  | carriedOut => exact h.of_done rfl rfl rfl rfl
  | faulted => exact ⟨fun _ hq => (Option.some_ne_none _ hq.symm).elim, h.current, h.queue⟩
  | passedOver m _ hrequest => exact h.of_done rfl hrequest rfl rfl
  | completed m _ _ _ hrequest => exact orderly_of_free rfl rfl hrequest

end Orderly

end Machine

section

variable {r : Rules} {m m' : Machine} {p : Pending} {targets : List Card} {t : Table}

/-- Targets that are fetched by an orderly machine for its effect in work are lawful. -/
theorem Pending.Fetches.lawful (h : p.Fetches r m.request m.table targets t) (ho : m.Orderly r)
    (hcurrent : m.current = some p) : (m.handover p targets).Lawful r := by
  cases h with
  | collected hsel _ h =>
    refine Handover.lawful_of_collected rfl hsel (t := m.table) ?_
    change (exec (p.effect.autoTargets r m.source) m.table).1 = .ok targets
    rw [← ho.current p hcurrent, h]
  | picked hsel =>
    refine Handover.lawful_of_selectable hsel (fun c hc => List.mem_of_mem_take hc) ?_
    have hnonneg := Effect.request_maxSelections_nonneg p.effect
      (p.effect.selectable r m.table.game)
    dsimp only [Machine.handover]
    rw [List.length_take]
    omega
  | @answered q ids _ hrequest h =>
    -- The request was made on the hand as it is now, for the effect that is in work.
    obtain ⟨p', hcurrent', hsel, rfl⟩ := ho.request q hrequest
    obtain rfl : p' = p := Option.some.inj (hcurrent'.symm.trans hcurrent)
    refine Handover.lawful_of_selectable hsel (fun c hc => (Engine.mem_of_selected h hc).1) ?_
    dsimp only [Machine.handover]
    rw [Engine.length_of_selected h]
    exact (Engine.selected_eq_ok_iff.mp h).2.2.1

/-- If the ids on the table tell cards apart, no card is fetched twice, unless it is drawn twice. -/
theorem Pending.Fetches.nodup (h : p.Fetches r m.request m.table targets t) (ho : m.Orderly r)
    (hcurrent : m.current = some p) (hids : m.table.game.zones.ids.Nodup)
    (hdraws : (m.handover p targets).DrawsApart) : (targets.map (·.instanceId)).Nodup := by
  have hhand := Zones.nodup_hand_ids hids
  have hoption (o : Option Card) : (o.toList.map (·.instanceId)).Nodup := by cases o <;> simp
  have hlawful := h.lawful ho hcurrent
  cases h with
  | collected hsel _ h =>
    -- Parts of the hand have no card twice, and single cards have not either: that leaves draws.
    rcases htarget : p.effect.target
    case none =>
      rw [show targets = [] from hlawful.none htarget]
      exact List.nodup_nil
    case self =>
      rw [show targets = m.source.toList from hlawful.self htarget]
      exact hoption m.source
    case deckTop =>
      rw [show targets = m.table.game.deckTop?.toList from hlawful.deckTop htarget]
      exact hoption m.table.game.deckTop?
    case allHandTreasure =>
      rw [show targets = _ from hlawful.treasures htarget]
      exact hhand.sublist (List.filter_sublist.map _)
    case allHandPollution =>
      rw [show targets = _ from hlawful.pollution htarget]
      exact hhand.sublist (List.filter_sublist.map _)
    case random =>
      unfold Effect.autoTargets at h
      rw [Play.exec_game_bind, htarget] at h
      exact Effect.nodup_ids_randomTargets hhand (congrArg Prod.fst h) (hdraws htarget)
    all_goals cases htarget ▸ hsel
  | picked =>
    refine hhand.sublist (List.Sublist.map _ ?_)
    exact (List.take_sublist _ _).trans (p.effect.selectable_sublist r m.table.game)
  | answered _ h =>
    rw [Engine.ids_of_selected h]
    exact (Engine.selected_eq_ok_iff.mp h).2.1

namespace Scene.Step

variable {s s' : Scene}

/-- Every step keeps the ids on the table apart. -/
theorem distinct {d : Option Deed} (hstep : Step r s d s') (hd : s.machine.table.game.Distinct) :
    s'.machine.table.game.Distinct := by
  cases hstep with
  | rolled m _ hrolled =>
    obtain ⟨dice, rfl⟩ := hrolled
    exact hd
  | named m _ id =>
    have hevolves : GameState.Evolves [] _ _ := .cardNamed id m.table.game
    exact hevolves.distinct hd
  | @carriedOut m p targets t u magnitude y _ hfetched hmagnitude hy =>
    obtain ⟨dice, rfl⟩ := hfetched.rolled_magnitude hmagnitude
    -- Cards may be made by the effect, and then they get ids that no card has.
    have hevolves : GameState.Evolves targets _ (y.after r).game :=
      Table.Evolves.execute y.assignment (fun c hc => by rwa [hy] at hc) y.before
    refine hevolves.distinct ?_
    rw [hy]
    exact hd
  | faulted m _ hfetched hmagnitude =>
    obtain ⟨dice, rfl⟩ := hfetched.rolled_magnitude hmagnitude
    exact hd
  | _ => exact hd

/-- What an orderly machine hands over is lawful, and no card is handed over twice if the ids on the
table tell cards apart. -/
theorem lawful {d : Deed} {x : Handover} (hstep : Step r s (some d) s')
    (ho : s.machine.Orderly r) (hx : d.handover? = some x) :
    x.Lawful r ∧ (s.machine.table.game.Distinct → x.DrawsApart →
      (x.targets.map (·.instanceId)).Nodup) := by
  cases hstep with
  | carriedOut m hcurrent hfetched | faulted m hcurrent hfetched =>
    obtain rfl := Option.some.inj hx
    exact ⟨hfetched.lawful ho hcurrent, fun hd => hfetched.nodup ho hcurrent hd.nodup⟩
  | began | queued | asked | passedOver | completed => cases hx

end Scene.Step

/-- An effect is carried out for the activation that began last, from the card that it came from. -/
theorem Scene.Path.source_eq {s s' : Scene} {earlier since later : List Deed} {groups : List Group}
    {source : Option Card} {before : Table} {d : Deed} {x : Handover}
    (hpath : Scene.Path r s (earlier ++ .began groups source before :: (since ++ d :: later)) s')
    (hsince : ∀ e ∈ since, e.isBegan = false) (hx : d.handover? = some x) : x.source = source := by
  have hfits := hpath.fits hsince
  cases d with
  | carriedOut =>
    obtain rfl := Option.some.inj hx
    exact hfits.2.1
  | faulted =>
    obtain rfl := Option.some.inj hx
    exact hfits.2
  | began | queued | asked | passedOver | completed => cases hx

/-- From a machine with nothing in flight, whatever calls a host makes, and whatever calls observers
make inside them, their deeds are known, and effects are carried out on what they are handed. Each
effect is handed lawful targets; and if the ids on the table tell cards apart, and none of them is
one that the game is still to make, then each effect is handed cards with ids that differ, unless
random draws are from the same place. The source of what is handed over is the card that the
activation came from. -/
theorem Machine.lawful_of_calls (r : Rules) (m : Machine) (hqueue : m.queue = [])
    (hcurrent : m.current = none) (hrequest : m.request = none) (cs : List HostCall) :
    m.DoesAll r cs (m.deeds r cs) ∧
      (∀ d ∈ m.deeds r cs, d.Authoritative r ∧ ∀ x, d.handover? = some x → x.Lawful r ∧
        (m.table.game.Distinct → x.DrawsApart → (x.targets.map (·.instanceId)).Nodup)) ∧
      ∀ earlier groups source before since d later,
        m.deeds r cs = earlier ++ .began groups source before :: (since ++ d :: later) →
          (∀ e ∈ since, e.isBegan = false) → ∀ x, d.handover? = some x → x.source = source := by
  have hpath := (m.doesAll_deeds (r := r) cs).path
  refine ⟨m.doesAll_deeds cs, fun d hd => ⟨?_, fun x hx => ?_⟩, ?_⟩
  · exact hpath.forall_label Scene.Step.authoritative d hd
  · obtain ⟨u, u', ⟨ho, hdistinct⟩, hstep⟩ := hpath.exists_of_mem
      (P := fun s => s.machine.Orderly r ∧ (m.table.game.Distinct → s.machine.table.game.Distinct))
      ⟨Machine.orderly_of_free hqueue hcurrent hrequest, id⟩
      (fun hstep h => ⟨h.1.step rfl hstep, fun hd => hstep.distinct (h.2 hd)⟩) hd
    obtain ⟨hlawful, hnodup⟩ := hstep.lawful ho hx
    exact ⟨hlawful, fun hd => hnodup (hdistinct hd)⟩
  · intro earlier groups source before since d later hdeeds hsince x hx
    exact (Machine.path_of_deeds_eq hdeeds).source_eq hsince hx

/-- A copper is picked and destroyed. -/
theorem Machine.lawful_of_calls_of_one_copper :
    let copper : Card := { serial := 1, instanceId := "copper#1", cardId := "copper" }
    let m : Machine :=
      { table := { game := { zones := { hand := [copper] }, instancesMade := 1 },
                   dice := { twister := { words := #[], used := 0 } } } }
    let groups := [Group.always [{ kind := .known .destroyCard, target := .handCard }]]
    let cs := [HostCall.start groups none, .answer (.pick ["copper#1"])]
    (∃ d ∈ m.deeds {} cs, ∃ x, d.handover? = some x ∧ x.targets = [copper]) ∧
      ∀ d ∈ m.deeds {} cs, ∀ x, d.handover? = some x →
        x.Lawful {} ∧ (x.targets.map (·.instanceId)).Nodup := by
  intro copper m groups cs
  obtain ⟨-, hdeeds, -⟩ := lawful_of_calls {} m rfl rfl rfl cs
  have hdistinct : m.table.game.Distinct := by
    refine ⟨Multiset.nodup_singleton _, fun cardId n hn hid => ?_⟩
    have hone : n = 1 := numbered_inj (d := "copper") (Multiset.mem_singleton.mp hid)
    exact absurd hone hn.ne'
  have hhanded : ∀ d ∈ m.deeds {} cs, ∀ x ∈ d.handover?, x.game.zones.hand.length ≤ 21 := by
    decide +kernel
  refine ⟨by decide +kernel, fun d hd x hx => ?_⟩
  obtain ⟨hlawful, hnodup⟩ := (hdeeds d hd).2 x hx
  exact ⟨hlawful, hnodup hdistinct (Handover.drawsApart_of_length_le (hhanded d hd x hx))⟩

end

namespace TwoCoppers

/-- Rules under which coppers are treasures and targets are picked for the player. -/
def rules : Rules where
  catalog := { cards := [{ id := "copper", name := "Copper", kind := .treasure }] }
  config := { autoSelect := true }

/-- A copper whose number the game has not reached. -/
def copper : Card := { serial := 1, instanceId := "copper#1", cardId := "copper" }

/-- A copper that is made next, and gets the same id. -/
def again : Card := { copper with serial := 2, temporary := true }

/-- A table with some coppers in hand, after some more ids and copies were made. -/
def table (hand : List Card) (instancesMade copiesMade : Nat) : Table where
  game := { zones := { hand }, instancesMade, copiesMade }
  dice := { twister := { words := #[], used := 0 } }

/-- A temporary copper is made. -/
def make : Effect := { kind := .known .createTempTreasure, createGrade := some 1 }

/-- Up to two cards in hand are destroyed. -/
def destroy : Effect := { kind := .known .destroyCard, target := .handCard, maxTargets := 2 }

/-- What comes of making a copper. -/
def made : EffectResult := { kind := .known .createTempTreasure, success := true, count := 1 }

/-- What comes of destroying two. -/
def destroyed : EffectResult := { kind := .known .destroyCard, success := true, count := 2 }

/-- A machine at one copper that has nothing in flight. -/
def machine : Machine := { table := table [copper] 0 1 }

/-- An activation of both effects. -/
def call : HostCall := .start [Group.always [make, destroy]] none

/-- That the ids on the table differ is not enough: here the game has not reached the number of a
card on the table, and gives its id to a new card. Then both cards are handed over as targets. -/
theorem not_nodup_of_id_made_twice :
    machine.table.game.zones.ids.Nodup ∧
      (machine.call rules call).1 =
        .ok { phase := .completed, results := [made, destroyed], request := none, source := none } ∧
      ∃ d ∈ machine.deeds rules [call], ∃ x, d.handover? = some x ∧ x.effect = destroy ∧
        x.targets = [copper, again] ∧ ¬ (x.targets.map (·.instanceId)).Nodup := by
  refine ⟨Multiset.nodup_singleton _, ?_, by decide +kernel⟩
  decide +kernel

end TwoCoppers

end Treasury
