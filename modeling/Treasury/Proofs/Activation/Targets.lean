import Treasury.Activation.Engine
import Treasury.Proofs.Game.Ids
import Treasury.Proofs.Random.Shuffle
import Treasury.Proofs.Play

/-!
# Where targets come from

The targets of an effect are hand cards, the top card of the deck, the source of the activation or
cards that a player picked among candidates (`Effect.mem_of_mem_autoTargets`,
`Effect.mem_hand_of_mem_selectable`, `Engine.mem_of_selected`). `Engine.selected_eq_ok_iff` says
which selections are accepted; one of them is to pick the first candidates, as many as may be picked
(`Engine.selected_firstIds`).
-/

namespace Treasury

/-- The ids of the first candidates, as many as may be picked. -/
def TargetRequest.firstIds (q : TargetRequest) : List String :=
  q.candidateIds.take q.maxSelections.toNat

/-- If no two ids on the table are the same, no two cards in hand have one id. -/
theorem Zones.nodup_hand_ids {z : Zones} (h : z.ids.Nodup) :
    (z.hand.map (·.instanceId)).Nodup := by
  have hhand : z.hand.ids ≤ z.ids := by
    rw [ids_eq, add_assoc, add_assoc, add_left_comm]
    exact Multiset.le_add_right _ _
  exact Multiset.coe_nodup.mp (Multiset.nodup_of_le hhand h)

namespace Effect

variable {e : Effect} {r : Rules}

/-- The cards to pick from are hand cards, in hand order. -/
theorem selectable_sublist (e : Effect) (r : Rules) (g : GameState) :
    (e.selectable r g).Sublist g.zones.hand := by
  unfold selectable
  extract_lets eligible
  -- What is eligible is the hand, a part of it or nothing.
  have heligible : eligible.Sublist g.zones.hand := by
    unfold eligible
    split
    · exact List.Sublist.refl _
    · split
      · exact List.filter_sublist
      · exact List.nil_sublist _
  split
  · exact List.filter_sublist.trans heligible
  · exact heligible

/-- Cards to pick from are hand cards. -/
theorem mem_hand_of_mem_selectable {g : GameState} {c : Card} (h : c ∈ e.selectable r g) :
    c ∈ g.zones.hand := (e.selectable_sublist r g).subset h

/-- If no two ids on the table are the same, no two candidates have one id. -/
theorem nodup_candidateIds {g : GameState} (h : g.zones.ids.Nodup) :
    (e.request (e.selectable r g)).candidateIds.Nodup :=
  (Zones.nodup_hand_ids h).sublist ((e.selectable_sublist r g).map _)

/-- No request allows fewer than no cards. -/
theorem request_maxSelections_nonneg (e : Effect) (cs : List Card) :
    0 ≤ (e.request cs).maxSelections := by
  change 0 ≤ e.selectionCap cs.length
  unfold selectionCap
  split <;> omega

/-- A permanent upgrade lets no temporary cards be picked. -/
theorem temporary_eq_false_of_mem_selectable {g : GameState} {c : Card}
    (hkind : e.kind = .known .permanentUpgrade) (hc : c ∈ e.selectable r g) :
    c.temporary = false := by
  unfold selectable at hc
  rw [if_pos hkind] at hc
  simpa using (List.mem_filter.mp hc).2

/-- Cards that may be picked depend on the cards in hand only. -/
theorem selectable_congr {g g' : GameState} (h : g'.zones = g.zones) :
    e.selectable r g' = e.selectable r g := by
  unfold selectable
  rw [h]

section Random

variable {hand : Pile} {t : Table} {cs : List Card}

/-- Targets picked at random are a sample of the hand, if there are cards in it. -/
theorem randomTargets_cases (h : (exec (e.randomTargets hand) t).1 = .ok cs) :
    hand = [] ∧ cs = [] ∨ (t.dice.sample hand (e.randomCount hand.length)).1 = some cs := by
  unfold randomTargets at h
  rw [exec_ite] at h
  split at h
  · next hempty =>
    cases h
    exact .inl ⟨List.isEmpty_iff.mp hempty, rfl⟩
  · rw [exec_bind, Play.exec_throwDice] at h
    -- The sample is named, so that nothing looks into it.
    generalize t.dice.sample hand (e.randomCount hand.length) = drawn at h ⊢
    obtain ⟨_ | chosen, d⟩ := drawn
    · cases h
    · cases h
      exact .inr rfl

/-- Targets picked at random are hand cards. -/
theorem mem_hand_of_mem_randomTargets {c : Card} (h : (exec (e.randomTargets hand) t).1 = .ok cs)
    (hc : c ∈ cs) : c ∈ hand := by
  obtain ⟨-, rfl⟩ | hsample := randomTargets_cases h
  · cases hc
  · exact Random.Dice.mem_of_mem_sample hsample hc

/-- As many targets are picked at random as the effect takes, but at least one, if there are so many
cards in hand. -/
theorem length_randomTargets (h : (exec (e.randomTargets hand) t).1 = .ok cs) :
    (cs.length : Int) = min (max 1 e.maxTargets) hand.length := by
  obtain ⟨rfl, rfl⟩ | hsample := randomTargets_cases h
  · simp
  · have hlength := Random.Dice.length_sample hsample
    unfold randomCount at hlength
    split at hlength
    · omega
    · omega

/-- If the places that targets are picked from at random differ, so do their ids. -/
theorem nodup_ids_randomTargets (hhand : (hand.map (·.instanceId)).Nodup)
    (h : (exec (e.randomTargets hand) t).1 = .ok cs)
    (hplaces : ∀ ps, (t.dice.sample (List.finRange hand.length) (e.randomCount hand.length)).1 =
      some ps → ps.Nodup) : (cs.map (·.instanceId)).Nodup := by
  obtain ⟨-, rfl⟩ | hsample := randomTargets_cases h
  · exact List.nodup_nil
  · have hids := congrArg Prod.fst (Random.Dice.sample_map (·.instanceId) hand
      (e.randomCount hand.length) t.dice)
    rw [hsample] at hids
    refine Random.Dice.nodup_sample hhand hids ?_
    rw [List.length_map]
    exact hplaces

end Random

/-- Targets that are collected without asking are on the table or the source. -/
theorem mem_of_mem_autoTargets {source : Option Card} {t : Table} {cs : List Card} {c : Card}
    (h : (exec (e.autoTargets r source) t).1 = .ok cs) (hc : c ∈ cs) :
    c ∈ source ∨ c ∈ t.game.zones.cards := by
  unfold autoTargets at h
  rw [Play.exec_game_bind] at h
  have hhand : c ∈ t.game.zones.hand → c ∈ t.game.zones.cards := fun hc =>
    Zones.mem_cards_iff_exists.mpr ⟨.hand, hc⟩
  split at h
  · cases h
    exact .inr (hhand (List.mem_filter.mp hc).1)
  · cases h
    exact .inr (hhand (List.mem_filter.mp hc).1)
  · cases h
    exact .inl (Option.mem_toList.mp hc)
  · cases h
    have htop := List.mem_of_head? (Option.mem_toList.mp hc)
    exact .inr (Zones.mem_cards_iff_exists.mpr ⟨.deck, htop⟩)
  · exact .inr (hhand (mem_hand_of_mem_randomTargets h hc))
  · cases h
    cases hc

end Effect

namespace Engine

variable {q : TargetRequest} {ids : List String} {targets : List Card}

/-- A selection is accepted if it names candidates, none of them twice, and not too many; the
targets are the candidates it names. -/
theorem selected_eq_ok_iff : selected q ids = .ok targets ↔
    (∀ id ∈ ids, id ∈ q.candidateIds) ∧ ids.Nodup ∧ (ids.length : Int) ≤ q.maxSelections ∧
      ids.filterMap (fun id => q.candidates.reverse.find? (·.instanceId = id)) = targets := by
  -- The first check speaks of ids that are no candidates, by a filter that is not empty.
  have hall : (!(ids.filter (· ∉ q.candidateIds)).isEmpty) = true ↔
      ¬ ∀ id ∈ ids, id ∈ q.candidateIds := by
    simp [List.filter_eq_nil_iff]
  unfold selected
  dsimp only
  split
  · next hinvalid => exact iff_of_false (fun h => nomatch h) fun h => hall.mp hinvalid h.1
  · next hvalid =>
    have hnamed := Decidable.not_not.mp (mt hall.mpr hvalid)
    split
    · next hrepeated => exact iff_of_false (fun h => nomatch h) fun h => hrepeated h.2.1
    · next hnodup =>
      split
      · next hmany => exact iff_of_false (fun h => nomatch h) fun h => Int.not_le.mpr hmany h.2.2.1
      · next hfew =>
        rw [Except.ok.injEq]
        exact ⟨fun h => ⟨hnamed, Decidable.not_not.mp hnodup, Int.not_lt.mp hfew, h⟩,
          fun h => h.2.2.2⟩

/-- Selected cards are candidates. -/
theorem mem_of_selected {c : Card} (h : selected q ids = .ok targets) (hc : c ∈ targets) :
    c ∈ q.candidates ∧ c.instanceId ∈ ids := by
  obtain ⟨-, -, -, rfl⟩ := selected_eq_ok_iff.mp h
  obtain ⟨id, hid, hfind⟩ := List.mem_filterMap.mp hc
  have hsame : c.instanceId = id := by
    simpa using List.find?_some hfind
  exact ⟨List.mem_reverse.mp (List.mem_of_find?_eq_some hfind), hsame ▸ hid⟩

/-- If no two candidates have one id, the first of them that may be picked can be picked by their
ids. -/
theorem selected_firstIds (hids : q.candidateIds.Nodup) (hmax : 0 ≤ q.maxSelections) :
    selected q q.firstIds = .ok (q.candidates.take q.maxSelections.toNat) := by
  have hsub : q.firstIds.Sublist q.candidateIds := List.take_sublist _ _
  refine selected_eq_ok_iff.mpr ⟨fun _ hid => hsub.subset hid, hids.sublist hsub, ?_, ?_⟩
  · have hlength := List.length_take_le q.maxSelections.toNat q.candidateIds
    change (q.firstIds.length : Int) ≤ _
    unfold TargetRequest.firstIds
    omega
  · -- The card that an id names is the one that it was taken from.
    have hfind : ∀ c ∈ q.candidates,
        q.candidates.reverse.find? (·.instanceId = c.instanceId) = some c := by
      intro c hc
      cases hfound : q.candidates.reverse.find? (·.instanceId = c.instanceId) with
      | none =>
        have hnot := List.find?_eq_none.mp hfound c (List.mem_reverse.mpr hc)
        exact absurd (decide_eq_true rfl) hnot
      | some d =>
        have hd := List.mem_reverse.mp (List.mem_of_find?_eq_some hfound)
        have hsame : d.instanceId = c.instanceId := by simpa using List.find?_some hfound
        rw [List.inj_on_of_nodup_map hids hd hc hsame]
    rw [TargetRequest.firstIds, TargetRequest.candidateIds, ← List.map_take, List.filterMap_map]
    calc (q.candidates.take q.maxSelections.toNat).filterMap
          ((fun id => q.candidates.reverse.find? (·.instanceId = id)) ∘ (·.instanceId))
        = (q.candidates.take q.maxSelections.toNat).filterMap some :=
          List.filterMap_congr fun c hc => hfind c (List.mem_of_mem_take hc)
      _ = q.candidates.take q.maxSelections.toNat := List.filterMap_some

/-- The selected targets have the ids that are given. -/
theorem ids_of_selected (h : selected q ids = .ok targets) :
    targets.map (·.instanceId) = ids := by
  obtain ⟨hnamed, -, -, rfl⟩ := selected_eq_ok_iff.mp h
  -- Every id names a candidate, so a card is found for each of them.
  have hfind : ∀ id ∈ ids, (q.candidates.reverse.find? (·.instanceId = id)).map (·.instanceId) =
      some id := by
    intro id hid
    obtain ⟨c, hc, hcid⟩ := List.mem_map.mp (hnamed id hid)
    have hfound : (q.candidates.reverse.find? (·.instanceId = id)).isSome :=
      List.find?_isSome.mpr ⟨c, List.mem_reverse.mpr hc, decide_eq_true hcid⟩
    obtain ⟨d, hd⟩ := Option.isSome_iff_exists.mp hfound
    have hsame : d.instanceId = id := by simpa using List.find?_some hd
    rw [hd, Option.map_some, hsame]
  rw [List.map_filterMap, List.filterMap_congr hfind]
  exact List.filterMap_some

/-- As many targets are selected as ids are given. -/
theorem length_of_selected (h : selected q ids = .ok targets) :
    targets.length = ids.length := by
  rw [← ids_of_selected h, List.length_map]

end Engine

end Treasury
