import Mathlib.Data.List.Nodup
import Mathlib.Data.List.Perm.Basic
import Treasury.Random.Dice

/-!
# Shuffles and samples

A shuffle neither loses nor adds anything (`shuffle_perm`), and whatever is picked or sampled is
among the items it was taken from (`mem_of_pick`, `mem_of_mem_sample`). Where there is but one item
it is the sample (`sample_singleton`).

A sample has as many items as are asked for (`length_sample`). Which places they are taken from has
nothing to do with the items there (`sample_map`), so items that differ are sampled to items that
differ if the places differ (`nodup_sample`). From a list of at most 21 items they always do
(`nodup_sample_of_length_le`).
-/

namespace Treasury.Random.Dice

variable {α β : Type}

/-- Trading places keeps the items. -/
theorem exchanges_perm (items : Array α) (i : Nat) (d : Dice) :
    (exchanges items i d).1.toList.Perm items.toList := by
  induction i generalizing items d with
  | zero => exact .refl _
  | succ i ih =>
    rw [exchanges]
    -- The draw is named, so that nothing looks into it.
    generalize d.below (i + 2) = drawn
    obtain ⟨j, d⟩ := drawn
    refine (ih _ d).trans ?_
    rw [Array.swapIfInBounds_def]
    split
    · split
      · exact (Array.swap_perm _ _).toList
      · exact .refl _
    · exact .refl _

/-- A shuffle keeps the items. -/
theorem shuffle_perm (items : List α) (d : Dice) : (shuffle items d).1.Perm items :=
  exchanges_perm items.toArray _ d

/-- A picked item is one of the list. -/
theorem mem_of_pick {items : List α} {d : Dice} {x : α} (h : (pick items d).1 = some x) :
    x ∈ items := by
  unfold pick at h
  split at h
  · cases h
  · exact List.mem_of_getElem? h

/-- From a list with items in it one is picked. -/
theorem isSome_pick_iff (items : List α) (d : Dice) :
    (pick items d).1.isSome = true ↔ items ≠ [] := by
  unfold pick
  split
  · simp
  · next hne =>
    refine iff_of_true ?_ hne
    rw [Option.isSome_iff_exists]
    exact ⟨_, List.getElem?_eq_getElem (below_lt _ (List.length_pos_iff.mpr hne) d)⟩

/-- Items drawn from a pool are items of the pool. -/
theorem mem_of_mem_drawn {pool : Array α} {count : Nat} {d : Dice} {x : α}
    (h : x ∈ (drawn pool count d).1) : x ∈ pool := by
  induction count generalizing pool d with
  | zero => cases h
  | succ count ih =>
    simp only [drawn, List.mem_append, Option.mem_toList] at h
    rcases h with h | h
    · exact Array.mem_of_getElem? h
    · -- What is drawn leaves its place to the last one, which was in the pool as well.
      have hrest := ih h
      split at hrest
      · next last hlast =>
        rw [Array.mem_def, Array.toList_pop] at hrest
        have hset := Array.mem_toList_iff.mp (List.dropLast_subset _ hrest)
        rcases Array.mem_or_eq_of_mem_setIfInBounds hset with hx | rfl
        · exact hx
        · exact Array.mem_of_back? hlast
      · exact hrest

/-- Sampled items are items of the list. -/
theorem mem_of_mem_sample {items chosen : List α} {count : Int} {d : Dice} {x : α}
    (h : (sample items count d).1 = some chosen) (hx : x ∈ chosen) : x ∈ items := by
  unfold sample at h
  split at h
  · cases h
  · split at h
    · rw [← Option.some.inj h] at hx
      exact Array.mem_toList_iff.mpr (mem_of_mem_drawn hx)
    · rw [← Option.some.inj h] at hx
      obtain ⟨i, -, hi⟩ := List.mem_filterMap.mp hx
      exact List.mem_of_getElem? hi

/-- Of a single item there is but one sample. -/
theorem sample_singleton (x : α) (d : Dice) : (sample [x] 1 d).1 = some [x] := by
  have hplace : (d.below #[x].size).1 = 0 := Nat.lt_one_iff.mp (d.below_lt 1 Nat.one_pos)
  have hpool : [x].length ≤ poolLimit (Int.toNat 1) := (by decide : 1 ≤ 21)
  unfold sample
  rw [if_neg (by simp), if_pos hpool]
  simp only [Int.toNat_one, drawn, List.append_nil, hplace]
  rfl

/-- As many items are drawn from a pool as are asked for, if there are so many. -/
theorem length_drawn {pool : Array α} {count : Nat} (h : count ≤ pool.size) (d : Dice) :
    (drawn pool count d).1.length = count := by
  induction count generalizing pool d with
  | zero => rfl
  | succ count ih =>
    have hsize : 0 < pool.size := by omega
    have hlast : pool.back? = some (pool.back hsize) := by simp [Array.back?, Array.back]
    have hplace := d.below_lt pool.size hsize
    rw [drawn]
    -- The draw is named, so that nothing looks into it.
    generalize d.below pool.size = draw at hplace ⊢
    obtain ⟨j, d⟩ := draw
    simp only [hlast, List.length_append]
    rw [ih (by simp; omega), Array.getElem?_eq_getElem hplace]
    simp [Nat.add_comm]

/-- A place that is looked for below a positive bound is below it. -/
theorem untaken_lt {bound : Nat} (h : 0 < bound) (taken : List Nat) (tries : Nat) (d : Dice) :
    (untaken taken bound tries d).1 < bound := by
  induction tries generalizing d with
  | zero => exact d.below_lt bound h
  | succ tries ih =>
    simp only [untaken]
    split
    · exact ih _
    · exact d.below_lt bound h

theorem lt_of_mem_places {bound : Nat} (h : 0 < bound) {taken : List Nat} {count : Nat} {d : Dice}
    {i : Nat} (hi : i ∈ (places bound taken count d).1) : i < bound := by
  induction count generalizing taken d with
  | zero => cases hi
  | succ count ih =>
    have hplace := untaken_lt h taken patience d
    rw [places] at hi
    generalize untaken taken bound patience d = draw at hplace hi
    rcases List.mem_cons.mp hi with rfl | hi
    · exact hplace
    · exact ih hi

theorem length_places (bound : Nat) (taken : List Nat) (count : Nat) (d : Dice) :
    (places bound taken count d).1.length = count := by
  induction count generalizing taken d with
  | zero => rfl
  | succ count ih =>
    rw [places]
    generalize untaken taken bound patience d = draw
    simp [ih]

/-- A sample has as many items as are asked for. -/
theorem length_sample {items chosen : List α} {count : Int} {d : Dice}
    (h : (sample items count d).1 = some chosen) : (chosen.length : Int) = count := by
  unfold sample at h
  split at h
  · cases h
  · split at h
    · rw [← Option.some.inj h, length_drawn (by simp; omega)]
      omega
    · next hlarge =>
      have hpos : 0 < items.length := by omega
      -- Every place is one of the list, so an item is found there.
      have hfound : ∀ i ∈ (places items.length [] count.toNat d).1, (items[i]?).isSome := by
        intro i hi
        rw [List.getElem?_eq_getElem (lt_of_mem_places hpos hi)]
        rfl
      rw [← Option.some.inj h, List.filterMap_length_eq_length.mpr hfound, length_places]
      omega

/-- Drawing from a pool does not depend on what the items are. -/
theorem drawn_map (f : α → β) (pool : Array α) (count : Nat) (d : Dice) :
    drawn (pool.map f) count d = ((drawn pool count d).1.map f, (drawn pool count d).2) := by
  induction count generalizing pool d with
  | zero => rfl
  | succ count ih =>
    have hback : (pool.map f).back? = pool.back?.map f := by simp [Array.back?]
    rw [drawn, drawn, Array.size_map, hback]
    generalize d.below pool.size = draw
    obtain ⟨j, d⟩ := draw
    simp only [Array.getElem?_map, Option.toList_map, List.map_append]
    cases pool.back? with
    | none => simp [ih]
    | some last => simp [← Array.map_setIfInBounds, ← Array.map_pop, ih]

/-- Sampling does not depend on what the items are. -/
theorem sample_map (f : α → β) (items : List α) (count : Int) (d : Dice) :
    sample (items.map f) count d =
      ((sample items count d).1.map (·.map f), (sample items count d).2) := by
  unfold sample
  rw [List.length_map]
  split
  · rfl
  · split
    · simp [← List.map_toArray, drawn_map]
    · simp [List.map_filterMap]

/-- If the sampled places of a list without repetitions differ, so do the sampled items. -/
theorem nodup_sample {items chosen : List α} {count : Int} {d : Dice} (hitems : items.Nodup)
    (h : (sample items count d).1 = some chosen)
    (hplaces : ∀ ps, (sample (List.finRange items.length) count d).1 = some ps → ps.Nodup) :
    chosen.Nodup := by
  have hsample := congrArg Prod.fst (sample_map items.get (List.finRange items.length) count d)
  rw [List.map_get_finRange, h] at hsample
  obtain ⟨ps, hps, rfl⟩ := Option.map_eq_some_iff.mp hsample.symm
  exact (hplaces ps hps).map (List.nodup_iff_injective_get.mp hitems)

/-- The gap that a drawn item leaves is filled, and nothing else is lost. -/
theorem perm_eraseIdx_of_back? {pool : Array α} {j : Nat} {last : α} (hj : j < pool.size)
    (hlast : pool.back? = some last) :
    (pool.setIfInBounds j last).pop.toList.Perm (pool.toList.eraseIdx j) := by
  have hne : pool.toList.set j last ≠ [] := by
    refine List.ne_nil_of_length_pos ?_
    rw [List.length_set]
    exact Nat.zero_lt_of_lt hj
  have hback : (pool.toList.set j last).getLast hne = last := by
    rw [Array.back?_eq_getElem?, ← Array.getElem?_toList] at hlast
    simp only [List.getLast_eq_getElem, List.getElem_set, List.length_set]
    split
    · rfl
    · rw [List.getElem?_eq_some_iff] at hlast
      obtain ⟨_, h⟩ := hlast
      simpa using h
  -- The last one fills the place that is given up, so it stands there and at the end.
  have hset := List.set_perm_cons_eraseIdx (l := pool.toList) hj last
  rw [← List.dropLast_append_getLast hne, hback] at hset
  rw [Array.toList_pop, Array.toList_setIfInBounds]
  exact (List.perm_cons last).mp ((List.perm_append_singleton last _).symm.trans hset)

/-- No item is drawn twice from a pool in which the items differ. -/
theorem nodup_drawn {pool : Array α} (h : pool.toList.Nodup) (count : Nat) (d : Dice) :
    (drawn pool count d).1.Nodup := by
  induction count generalizing pool d with
  | zero => exact List.nodup_nil
  | succ count ih =>
    rw [drawn]
    cases hlast : pool.back? with
    | none =>
      -- There is nothing left to draw.
      have hsize : pool.size = 0 := by
        have hle : pool.size ≤ pool.size - 1 := Array.getElem?_eq_none_iff.mp hlast
        omega
      generalize d.below pool.size = draw
      obtain ⟨j, d⟩ := draw
      have hnone : pool[j]? = none := Array.getElem?_eq_none (by omega)
      simpa [hnone] using ih h d
    | some last =>
      have hsize : 0 < pool.size := by
        obtain ⟨hlt, -⟩ := Array.getElem?_eq_some_iff.mp hlast
        omega
      have hplace := d.below_lt pool.size hsize
      generalize d.below pool.size = draw at hplace ⊢
      obtain ⟨j, d⟩ := draw
      have hperm := perm_eraseIdx_of_back? hplace hlast
      have hsplit := (List.getElem_cons_eraseIdx_perm (l := pool.toList) hplace).symm
      obtain ⟨hnew, hrest⟩ := List.nodup_cons.mp (hsplit.nodup_iff.mp h)
      simp only [show pool[j]? = some pool[j] from Array.getElem?_eq_getElem hplace]
      refine List.nodup_cons.mpr ⟨fun hmem => hnew ?_, ih (hperm.nodup_iff.mpr hrest) d⟩
      exact hperm.subset (Array.mem_toList_iff.mpr (mem_of_mem_drawn hmem))

/-- A sample from a list of at most 21 items that differ is of items that differ. -/
theorem nodup_sample_of_length_le {items chosen : List α} {count : Int} {d : Dice}
    (hitems : items.Nodup) (hlength : items.length ≤ 21)
    (h : (sample items count d).1 = some chosen) : chosen.Nodup := by
  have hpool : items.length ≤ poolLimit count.toNat := by
    unfold poolLimit
    split <;> omega
  unfold sample at h
  split at h
  · cases h
  · rw [← Option.some.inj h]
    exact nodup_drawn hitems count.toNat d

end Treasury.Random.Dice
