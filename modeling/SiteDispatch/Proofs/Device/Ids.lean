/-
  SiteDispatch.Proofs.Device.Ids

  A device hands out ids that it does not use yet.

  The search for an id counts up and starts again at 0 after the largest one. It visits more
  ids than there are tasks, which have the ids of the flexibilities; as long as it does not come
  round, these are different, so one of them is free.
-/

import Mathlib.Data.Finset.Card
import SiteDispatch.Proofs.Device.Reachable

namespace SiteDispatch

/-! ## Sizes -/

namespace OrderedMap

variable {κ α : Type} [LT κ]

theorem length_keys (m : OrderedMap κ α) : m.keys.length = m.size := by
  rw [keys, List.length_map, size]

variable [DecidableLT κ] [KeyOrder κ]

theorem size_le_size_insert (m : OrderedMap κ α) (k : κ) (a : α) : m.size ≤ (m.insert k a).size := by
  show m.entries.length ≤ (insertEntry k a m.entries).length
  induction m.entries with
  | nil => exact Nat.zero_le _
  | cons e rest ih =>
      unfold insertEntry
      split
      · simp
      · split
        · simpa using ih
        · simp

theorem size_insert_le (m : OrderedMap κ α) (k : κ) (a : α) : (m.insert k a).size ≤ m.size + 1 := by
  show (insertEntry k a m.entries).length ≤ m.entries.length + 1
  induction m.entries with
  | nil => exact Nat.le_refl 1
  | cons e rest ih =>
      unfold insertEntry
      split
      · simp
      · split
        · simpa using ih
        · simp

end OrderedMap

namespace DeviceState

/-! ## The search for an id -/

/-- Counting on from `id`, from the largest one back to 0. -/
theorem iterate_idAfter {id : Int} (h0 : 0 ≤ id) (n : Nat) :
    idAfter^[n] id
      = if id ≤ Quantity.greatest then (id + n) % (Quantity.greatest + 1) else id + n := by
  simp only [Quantity.greatest]
  induction n with
  | zero =>
      rw [Function.iterate_zero_apply]
      split_ifs <;> omega
  | succ n ih =>
      rw [Function.iterate_succ_apply', ih, idAfter]
      simp only [Quantity.greatest]
      push_cast
      split_ifs <;> omega

/-- Ids repeat only after all of them have been passed. -/
theorem iterate_idAfter_injOn {id : Int} (h0 : 0 ≤ id) {m n : Nat}
    (hm : (m : Int) ≤ Quantity.greatest) (hn : (n : Int) ≤ Quantity.greatest)
    (heq : idAfter^[m] id = idAfter^[n] id) : m = n := by
  rw [iterate_idAfter h0, iterate_idAfter h0] at heq
  simp only [Quantity.greatest] at *
  split_ifs at heq <;> omega

/-- The search fails only if all the ids that it has visited are used. -/
theorem used_of_used_firstUnused (used : Int → Bool) {tries : Nat} {id : Int}
    (h : used (firstUnused used tries id)) {n : Nat} (hn : n ≤ tries) : used (idAfter^[n] id) := by
  induction tries generalizing id n with
  | zero =>
      obtain rfl : n = 0 := by omega
      exact h
  | succ tries ih =>
      rw [firstUnused] at h
      split at h
      · -- A used id is passed, and the search goes on behind it.
        rename_i hused
        cases n with
        | zero => exact hused
        | succ n =>
            rw [Function.iterate_succ_apply]
            exact ih h (by omega)
      · -- The search has ended with an unused one, against the assumption.
        rename_i hunused
        exact absurd h hunused

/-! ## Flexibilities and tasks have the same ids -/

theorem Paired.keys_eq {P : Int → Flexibility → Task → Prop} {fs : OrderedMap Int Flexibility}
    {ts : OrderedMap Int Task} (h : Paired P fs ts) : fs.keys = ts.keys := by
  refine fs.pairwise_keys.eq_of_mem_iff ts.pairwise_keys fun k => ?_
  rw [OrderedMap.mem_keys_iff_get?, OrderedMap.mem_keys_iff_get?]
  rcases h k with ⟨hf, ht⟩ | ⟨f, t, hf, ht, -⟩
  · rw [hf, ht]
    simp
  · rw [hf, ht]
    simp

/-! ## New ids -/

/-- Flexibilities and tasks have the same ids, so a new id is a free one as long as there are
    fewer tasks than ids. -/
theorem Holds.nextId_free {P : Int → Flexibility → Task → Prop} {s : DeviceState}
    (h : s.Holds P) (hroom : (s.tasks.size : Int) ≤ Quantity.greatest) :
    s.flexibilities.get? s.nextId = none ∧ s.tasks.get? s.nextId = none := by
  have hkeys := h.paired.keys_eq
  by_contra hnot
  have hused : (s.flexibilities.contains s.nextId || s.tasks.contains s.nextId) = true := by
    rw [Bool.or_eq_true, OrderedMap.contains_iff_mem_keys, OrderedMap.contains_iff_mem_keys]
    by_contra hfree
    rw [not_or, ← OrderedMap.get?_eq_none_iff, ← OrderedMap.get?_eq_none_iff] at hfree
    exact hnot hfree
  -- Then all the ids that the search visits are keys, and there are more of them than keys.
  have hvisited : ∀ n ≤ s.tasks.size, idAfter^[n] s.idCounter ∈ s.tasks.keys.toFinset := by
    intro n hn
    have hkey := used_of_used_firstUnused
      (fun id => s.flexibilities.contains id || s.tasks.contains id) hused (n := n) (by omega)
    rw [Bool.or_eq_true, OrderedMap.contains_iff_mem_keys, OrderedMap.contains_iff_mem_keys,
      hkeys, or_self] at hkey
    exact List.mem_toFinset.2 hkey
  have hmore : s.tasks.size + 1 ≤ s.tasks.keys.toFinset.card := by
    rw [← Finset.card_range (s.tasks.size + 1)]
    apply Finset.card_le_card_of_injOn (fun n => idAfter^[n] s.idCounter)
    · intro n hn
      exact hvisited n (by simpa [Nat.lt_succ_iff] using hn)
    · intro m hm n hn heq
      simp only [Finset.coe_range, Set.mem_Iio] at hm hn
      exact iterate_idAfter_injOn h.counter (by omega) (by omega) heq
  have hless := List.toFinset_card_le s.tasks.keys
  rw [OrderedMap.length_keys] at hless
  omega

end DeviceState
end SiteDispatch
