/-
  SiteDispatch.Proofs.OrderedMap.StepFunction

  Maps over instants read as step functions. The entry in force at `t` sits under
  the last key at or before `t`; between two keys nothing changes.

  Two maps that agree under a common key and from there on denote the same step
  function from that key on, also when one is shifted in time against the other.
  This is how profiles relative to the start of a task and timelines over epoch
  seconds are compared.
-/

import SiteDispatch.Proofs.OrderedMap.Lookup

namespace SiteDispatch
namespace OrderedMap

variable {α : Type} {m n : OrderedMap Int α}

/-! ## The entry in force -/

theorem takeWhile_eq_filter_of_ascending {l : List (Int × α)}
    (h : l.Pairwise (fun a b => a.1 < b.1)) (t : Int) :
    l.takeWhile (fun e => ¬ t < e.1) = l.filter (fun e => ¬ t < e.1) := by
  induction l with
  | nil => rfl
  | cons e rest ih =>
      obtain ⟨he, hrest⟩ := List.pairwise_cons.1 h
      by_cases hlt : t < e.1
      · have hnone : rest.filter (fun e => ¬ t < e.1) = [] := by
          rw [List.filter_eq_nil_iff]
          intro x hx
          have := he x hx
          simp only [decide_eq_true_eq, not_not]
          omega
        rw [List.takeWhile_cons_of_neg (by simpa using hlt),
          List.filter_cons_of_neg (by simpa using hlt), hnone]
      · rw [List.takeWhile_cons_of_pos (by simpa using hlt),
          List.filter_cons_of_pos (by simpa using hlt), ih hrest]

/-- The entry in force is the last one of the map cut off after `t`. -/
theorem floorEntry?_eq_last (m : OrderedMap Int α) (t : Int) :
    m.floorEntry? t = lastEntry? (m.filter (fun k _ => ¬ t < k)) := by
  unfold floorEntry?
  rw [takeWhile_eq_filter_of_ascending m.ascending]
  rfl

theorem get?_cut (m : OrderedMap Int α) (t k : Int) :
    (m.filter (fun k _ => ¬ t < k)).get? k = if k ≤ t then m.get? k else none :=
  get?_filter_keys (by simp)

theorem floorEntry?_eq_some_iff {t k : Int} {a : α} :
    m.floorEntry? t = some (k, a) ↔
      m.get? k = some a ∧ k ≤ t ∧ ∀ j, k < j → j ≤ t → m.get? j = none := by
  rw [floorEntry?_eq_last, lastEntry?_eq_some_iff, get?_cut]
  constructor
  · rintro ⟨hget, hmax⟩
    have hk : k ≤ t := by
      by_contra hgt
      simp [hgt] at hget
    rw [if_pos hk] at hget
    refine ⟨hget, hk, fun j hkj hjt => ?_⟩
    -- A key in between would be in the cut and greater than its last.
    by_contra hne
    obtain ⟨b, hb⟩ := Option.ne_none_iff_exists'.1 hne
    exact hmax j (mem_keys_iff_get?.2 ⟨b, by rw [get?_cut, if_pos hjt, hb]⟩) hkj
  · rintro ⟨hget, hk, hnone⟩
    refine ⟨by rw [if_pos hk, hget], fun j hj hkj => ?_⟩
    obtain ⟨b, hb⟩ := mem_keys_iff_get?.1 hj
    rw [get?_cut] at hb
    by_cases hjt : j ≤ t
    · rw [if_pos hjt, hnone j hkj hjt] at hb
      cases hb
    · simp [hjt] at hb

theorem floorEntry?_eq_none_iff {t : Int} :
    m.floorEntry? t = none ↔ ∀ j, j ≤ t → m.get? j = none := by
  rw [floorEntry?_eq_last]
  unfold lastEntry?
  rw [List.getLast?_eq_none_iff]
  constructor
  · intro hnil j hj
    rw [get?_eq_none_iff, mem_keys]
    rintro ⟨a, ha⟩
    have hnot : ¬ t < j := by omega
    -- An entry up to `t` would be in the cut, which is empty.
    have hmem : (j, a) ∈ (m.filter (fun k _ => ¬ t < k)).entries := by
      simpa [filter, ha] using hj
    rw [hnil] at hmem
    simp at hmem
  · intro h
    rw [List.eq_nil_iff_forall_not_mem]
    rintro ⟨j, a⟩ hmem
    have hget := get?_eq_some_iff.2 hmem
    rw [get?_cut] at hget
    by_cases hj : j ≤ t
    · rw [if_pos hj, h j hj] at hget
      cases hget
    · simp [hj] at hget

theorem floorValue?_eq_some_iff {t : Int} {a : α} :
    m.floorValue? t = some a ↔
      ∃ k, m.get? k = some a ∧ k ≤ t ∧ ∀ j, k < j → j ≤ t → m.get? j = none := by
  rw [floorValue?, Option.map_eq_some_iff]
  constructor
  · rintro ⟨⟨k, b⟩, he, rfl⟩
    exact ⟨k, floorEntry?_eq_some_iff.1 he⟩
  · rintro ⟨k, h⟩
    exact ⟨(k, a), floorEntry?_eq_some_iff.2 h, rfl⟩

theorem floorValue?_eq_none_iff {t : Int} :
    m.floorValue? t = none ↔ ∀ j, j ≤ t → m.get? j = none := by
  rw [floorValue?, Option.map_eq_none_iff, floorEntry?_eq_none_iff]

/-- From its first key on a step function has a value. -/
theorem exists_floorValue?_of_key {k t : Int} (hk : k ∈ m.keys) (hkt : k ≤ t) :
    ∃ a, m.floorValue? t = some a := by
  rw [← Option.ne_none_iff_exists']
  intro hnone
  obtain ⟨b, hb⟩ := mem_keys_iff_get?.1 hk
  rw [floorValue?_eq_none_iff.1 hnone k hkt] at hb
  cases hb

/-- At a key the value stored there is in force. -/
theorem floorValue?_of_get? {k : Int} {a : α} (h : m.get? k = some a) :
    m.floorValue? k = some a :=
  floorValue?_eq_some_iff.2 ⟨k, h, Int.le_refl k, fun _ hlt hle => absurd hlt (by omega)⟩

/-- The value in force is one that the map stores. -/
theorem exists_key_of_floorValue? {t : Int} {a : α} (h : m.floorValue? t = some a) :
    ∃ k, k ≤ t ∧ m.get? k = some a := by
  obtain ⟨k, hget, hk, -⟩ := floorValue?_eq_some_iff.1 h
  exact ⟨k, hk, hget⟩

/-! ## Where step functions agree -/

/-- Nothing changes while no key is passed. -/
theorem floorValue?_eq_of_no_key {s t : Int} (hst : s ≤ t)
    (h : ∀ j, s < j → j ≤ t → m.get? j = none) : m.floorValue? t = m.floorValue? s := by
  apply Option.ext
  intro a
  rw [floorValue?_eq_some_iff, floorValue?_eq_some_iff]
  constructor
  · rintro ⟨k, hget, hk, hnone⟩
    have hks : k ≤ s := by
      by_contra hgt
      rw [h k (by omega) hk] at hget
      cases hget
    exact ⟨k, hget, hks, fun j hkj hjs => hnone j hkj (by omega)⟩
  · rintro ⟨k, hget, hk, hnone⟩
    refine ⟨k, hget, by omega, fun j hkj hjt => ?_⟩
    by_cases hjs : j ≤ s
    · exact hnone j hkj hjs
    · exact h j (by omega) hjt

/-- A map and a copy of it shifted by `d` agree at `t` if they do so from some
    key before `t` on. -/
theorem floorValue?_shift {d k t : Int} (hk : k ∈ m.keys) (hkt : k ≤ t)
    (h : ∀ j, k ≤ j → j ≤ t → n.get? (d + j) = m.get? j) :
    n.floorValue? (d + t) = m.floorValue? t := by
  obtain ⟨a, ha⟩ := exists_floorValue?_of_key hk hkt
  obtain ⟨i, hget, hit, hnone⟩ := floorValue?_eq_some_iff.1 ha
  have hki : k ≤ i := by
    by_contra hgt
    obtain ⟨b, hb⟩ := mem_keys_iff_get?.1 hk
    rw [hnone k (by omega) hkt] at hb
    cases hb
  rw [ha, floorValue?_eq_some_iff]
  refine ⟨d + i, by rw [h i hki hit, hget], by omega, fun j hij hjt => ?_⟩
  have hj := h (j - d) (by omega) (by omega)
  rw [show d + (j - d) = j by omega] at hj
  rw [hj, hnone (j - d) (by omega) (by omega)]

/-- Two maps agree at `t` if they do so from a common key before `t` on. -/
theorem floorValue?_congr_from {k t : Int} (hk : k ∈ m.keys) (hkt : k ≤ t)
    (h : ∀ j, k ≤ j → j ≤ t → n.get? j = m.get? j) : n.floorValue? t = m.floorValue? t := by
  have := floorValue?_shift (n := n) (d := 0) hk hkt (by simpa using h)
  simpa using this

/-- Two maps agree at `t` if they hold the same entries up to `t`. -/
theorem floorValue?_congr {t : Int} (h : ∀ j, j ≤ t → n.get? j = m.get? j) :
    n.floorValue? t = m.floorValue? t := by
  apply Option.ext
  intro a
  rw [floorValue?_eq_some_iff, floorValue?_eq_some_iff]
  constructor
  · rintro ⟨k, hget, hk, hnone⟩
    exact ⟨k, by rw [← h k hk, hget], hk, fun j hkj hjt => by rw [← h j hjt, hnone j hkj hjt]⟩
  · rintro ⟨k, hget, hk, hnone⟩
    exact ⟨k, by rw [h k hk, hget], hk, fun j hkj hjt => by rw [h j hjt, hnone j hkj hjt]⟩

/-! ## Insertion -/

theorem floorValue?_insert_of_lt {k t : Int} (a : α) (h : t < k) :
    (m.insert k a).floorValue? t = m.floorValue? t :=
  floorValue?_congr fun _ hj => get?_insert_of_ne (by omega)

/-- The new value is in force until the next key. -/
theorem floorValue?_insert_of_le {k t : Int} (a : α) (hkt : k ≤ t)
    (h : ∀ j, k < j → j ≤ t → m.get? j = none) :
    (m.insert k a).floorValue? t = some a := by
  rw [floorValue?_eq_some_iff]
  refine ⟨k, get?_insert_self m k a, hkt, fun j hkj hjt => ?_⟩
  rw [get?_insert_of_ne (by omega), h j hkj hjt]

/-! ## The next key -/

theorem higherKey?_eq_some_iff {t k : Int} :
    m.higherKey? t = some k ↔ k ∈ m.keys ∧ t < k ∧ ∀ j ∈ m.keys, t < j → k ≤ j := by
  have hrest : m.higherKey? t = ((m.filter (fun k _ => t < k)).firstKey?) := by
    rw [higherKey?, higherEntry?, firstKey?, keys, filter, List.head?_map, List.head?_filter]
  have hkeys : ∀ j, j ∈ (m.filter (fun k _ => t < k)).keys ↔ j ∈ m.keys ∧ t < j := by
    intro j
    simp [mem_keys, filter]
  rw [hrest, firstKey?_eq_some_iff]
  simp only [hkeys, Int.not_lt, and_imp, and_assoc]

theorem higherKey?_eq_none_iff {t : Int} : m.higherKey? t = none ↔ ∀ j ∈ m.keys, j ≤ t := by
  rw [higherKey?, Option.map_eq_none_iff, higherEntry?, List.find?_eq_none]
  simp [keys]

end OrderedMap
end SiteDispatch
