/-
  SiteDispatch.Proofs.OrderedMap.Lookup

  What each operation on ordered maps does to the value stored under a key.

  `get?` determines a map, and every later argument about maps goes through it:
  each operation has one equation that says what `get?` answers afterwards. The
  representation as a sorted list is opened in this module only.
-/

import Mathlib.Tactic.Common
import SiteDispatch.OrderedMap.Basic

namespace SiteDispatch
namespace OrderedMap

variable {κ α β : Type} [LT κ]

/-! ## Keys and entries -/

theorem mem_keys {m : OrderedMap κ α} {k : κ} :
    k ∈ m.keys ↔ ∃ a, (k, a) ∈ m.entries := by
  simp [keys]

theorem mem_values {m : OrderedMap κ α} {a : α} :
    a ∈ m.values ↔ ∃ k, (k, a) ∈ m.entries := by
  simp [values]

theorem values_filter (m : OrderedMap κ α) (p : α → Bool) :
    (m.filter fun _ a => p a).values = m.values.filter p := by
  rw [values, values, List.filter_map]
  rfl

theorem length_values (m : OrderedMap κ α) : m.values.length = m.size := List.length_map _

theorem pairwise_keys (m : OrderedMap κ α) : m.keys.Pairwise (· < ·) := by
  rw [keys, List.pairwise_map]
  exact m.ascending

theorem lastKey?_eq_map (m : OrderedMap κ α) :
    m.lastKey? = m.lastEntry?.map (·.1) := by
  simp [lastKey?, lastEntry?, keys]

theorem lastKey?_eq_of_lastEntry {m : OrderedMap κ α} {k : κ} {a : α}
    (h : m.lastEntry? = some (k, a)) : m.lastKey? = some k := by
  rw [lastKey?_eq_map, h]
  rfl

theorem isEmpty_iff {m : OrderedMap κ α} : m.isEmpty = true ↔ m = .empty := by
  rw [isEmpty, List.isEmpty_iff]
  exact ⟨fun h => ext h, fun h => congrArg entries h⟩

variable [DecidableEq κ]

theorem contains_iff {m : OrderedMap κ α} {k : κ} :
    m.contains k = true ↔ ∃ a, m.get? k = some a := by
  simp [contains, Option.isSome_iff_exists]

@[simp] theorem get?_empty (k : κ) : (empty : OrderedMap κ α).get? k = none := rfl

theorem get?_singleton (k : κ) (a : α) (j : κ) :
    (singleton k a).get? j = if j = k then some a else none := by
  by_cases h : j = k
  · simp [get?, singleton, h]
  · simp [get?, singleton, h, Ne.symm h]

theorem keys_modify (m : OrderedMap κ α) (k : κ) (f : α → α) : (m.modify k f).keys = m.keys := by
  rw [keys, keys, modify, mapValues, List.map_map]
  rfl

/-- A search that cannot tell a value from its image finds it in the same place. -/
theorem find?_values_modify (m : OrderedMap κ α) (k : κ) {p : α → Bool} {g : α → α} {f : α → β}
    (hp : ∀ a, p (g a) = p a) (hf : ∀ a, f (g a) = f a) :
    ((m.modify k g).values.find? p).map f = (m.values.find? p).map f := by
  show (((m.entries.map fun e => (e.1, if e.1 = k then g e.2 else e.2)).map (·.2)).find? p).map f
    = ((m.entries.map (·.2)).find? p).map f
  induction m.entries with
  | nil => rfl
  | cons e rest ih =>
      have he : p (if e.1 = k then g e.2 else e.2) = p e.2 := by
        split
        · exact hp e.2
        · rfl
      simp only [List.map_cons, List.find?_cons, he]
      cases p e.2 with
      | true =>
          simp only [Option.map_some, Option.some.injEq]
          split
          · exact hf e.2
          · rfl
      | false => exact ih

variable [KeyOrder κ]

/-- Keys identify entries: the search for a key finds the entry that has it. -/
theorem find?_key_of_mem {l : List (κ × α)} (h : l.Pairwise (fun a b => a.1 < b.1))
    {k : κ} {a : α} (hmem : (k, a) ∈ l) : l.find? (fun e => e.1 = k) = some (k, a) := by
  induction l with
  | nil => simp at hmem
  | cons e rest ih =>
      obtain ⟨he, hrest⟩ := List.pairwise_cons.1 h
      rcases List.mem_cons.1 hmem with rfl | hmem
      · simp
      · have hne : e.1 ≠ k := fun heq => KeyOrder.irrefl k (by simpa [heq] using he _ hmem)
        rw [List.find?_cons_of_neg (by simpa using hne)]
        exact ih hrest hmem

theorem get?_eq_some_iff {m : OrderedMap κ α} {k : κ} {a : α} :
    m.get? k = some a ↔ (k, a) ∈ m.entries := by
  constructor
  · intro h
    obtain ⟨⟨k', a'⟩, hfind, rfl⟩ := Option.map_eq_some_iff.1 h
    have hk : k' = k := by simpa using List.find?_some hfind
    exact hk ▸ List.mem_of_find?_eq_some hfind
  · intro h
    simp [get?, find?_key_of_mem m.ascending h]

theorem get?_eq_none_iff {m : OrderedMap κ α} {k : κ} : m.get? k = none ↔ k ∉ m.keys := by
  rw [mem_keys, Option.eq_none_iff_forall_ne_some]
  simp only [ne_eq, get?_eq_some_iff, not_exists]

theorem mem_keys_iff_get? {m : OrderedMap κ α} {k : κ} :
    k ∈ m.keys ↔ ∃ a, m.get? k = some a := by
  simp only [mem_keys, get?_eq_some_iff]

theorem mem_values_iff_get? {m : OrderedMap κ α} {a : α} :
    a ∈ m.values ↔ ∃ k, m.get? k = some a := by
  simp only [mem_values, get?_eq_some_iff]

theorem contains_iff_mem_keys {m : OrderedMap κ α} {k : κ} :
    m.contains k = true ↔ k ∈ m.keys := by
  rw [contains_iff, mem_keys_iff_get?]

omit [DecidableEq κ] in
theorem nodup_entries (m : OrderedMap κ α) : m.entries.Nodup := by
  refine List.Pairwise.imp ?_ m.ascending
  rintro a _ hlt rfl
  exact KeyOrder.irrefl _ hlt

/-- The values under all keys determine a map. -/
theorem ext_get? {m n : OrderedMap κ α} (h : ∀ k, m.get? k = n.get? k) : m = n := by
  have hperm : m.entries.Perm n.entries := by
    rw [List.perm_ext_iff_of_nodup m.nodup_entries n.nodup_entries]
    rintro ⟨k, a⟩
    rw [← get?_eq_some_iff, ← get?_eq_some_iff, h]
  -- Of two entries only one comes first, so the order of the keys leaves one list.
  exact ext (hperm.eq_of_pairwise
    (fun _ _ _ _ hab hba => absurd (KeyOrder.trans hab hba) (KeyOrder.irrefl _))
    m.ascending n.ascending)

/-! ## Selecting and changing entries -/

theorem get?_filter (m : OrderedMap κ α) (p : κ → α → Bool) (k : κ) :
    (m.filter p).get? k = (m.get? k).filter (p k) := by
  apply Option.ext
  intro a
  rw [get?_eq_some_iff, Option.filter_eq_some_iff, get?_eq_some_iff]
  simp [filter]

/-- Selecting by the key keeps or drops what is stored under it. -/
theorem get?_filter_keys {m : OrderedMap κ α} {p : κ → α → Bool} {k : κ} {q : Prop} [Decidable q]
    (h : ∀ a, p k a = true ↔ q) : (m.filter p).get? k = if q then m.get? k else none := by
  rw [get?_filter]
  cases m.get? k with
  | none => simp
  | some a => simp [Option.filter_some, h a]

theorem get?_erase (m : OrderedMap κ α) (k j : κ) :
    (m.erase k).get? j = if j = k then none else m.get? j := by
  rw [erase, get?_filter_keys (q := ¬ j = k) (by simp), ite_not]

theorem get?_foldl_erase (key : β → κ) (l : List β) (m : OrderedMap κ α) (k : κ) :
    (l.foldl (fun left b => left.erase (key b)) m).get? k
      = if k ∈ l.map key then none else m.get? k := by
  induction l generalizing m with
  | nil => simp
  | cons b rest ih =>
      rw [List.foldl_cons, ih, get?_erase]
      simp only [List.map_cons, List.mem_cons]
      by_cases hrest : k ∈ rest.map key
      · simp [hrest]
      · simp [hrest]

theorem get?_mapValues (f : κ → α → β) (m : OrderedMap κ α) (k : κ) :
    (m.mapValues f).get? k = (m.get? k).map (f k) := by
  apply Option.ext
  intro b
  rw [get?_eq_some_iff, Option.map_eq_some_iff]
  simp only [get?_eq_some_iff, mapValues, List.mem_map, Prod.mk.injEq, Prod.exists]
  constructor
  · rintro ⟨k', a, hmem, rfl, rfl⟩
    exact ⟨a, hmem, rfl⟩
  · rintro ⟨a, hmem, rfl⟩
    exact ⟨k, a, hmem, rfl, rfl⟩

theorem get?_modify (m : OrderedMap κ α) (k : κ) (f : α → α) (j : κ) :
    (m.modify k f).get? j = if j = k then (m.get? j).map f else m.get? j := by
  rw [modify, get?_mapValues]
  by_cases h : j = k
  · simp [h]
  · simp [h]

/-! ## First and last key -/

/-- The last entry is the one whose key no other key exceeds. -/
theorem lastEntry?_eq_some_iff {m : OrderedMap κ α} {k : κ} {a : α} :
    m.lastEntry? = some (k, a) ↔ m.get? k = some a ∧ ∀ j ∈ m.keys, ¬ k < j := by
  unfold lastEntry?
  rw [List.getLast?_eq_some_iff, get?_eq_some_iff]
  constructor
  · rintro ⟨front, hfront⟩
    refine ⟨by simp [hfront], fun j hj hlt => ?_⟩
    obtain ⟨b, hb⟩ := mem_keys.1 hj
    have hasc := m.ascending
    rw [hfront, List.pairwise_append] at hasc
    rw [hfront, List.mem_append, List.mem_singleton] at hb
    -- A key in front is smaller, and the only other key is `k` itself.
    rcases hb with hb | hb
    · have hlt' : j < k := hasc.2.2 _ hb _ (List.mem_singleton_self _)
      exact KeyOrder.irrefl k (KeyOrder.trans hlt hlt')
    · cases hb
      exact KeyOrder.irrefl _ hlt
  · rintro ⟨hmem, hmax⟩
    obtain ⟨front, rest, hsplit⟩ := List.append_of_mem hmem
    cases rest with
    | nil => exact ⟨front, hsplit⟩
    | cons e rest =>
        -- An entry behind `k` would have a greater key.
        exfalso
        have hasc := m.ascending
        rw [hsplit, List.pairwise_append] at hasc
        have hlt : k < e.1 := (List.pairwise_cons.1 hasc.2.1).1 e (by simp)
        exact hmax e.1 (mem_keys.2 ⟨e.2, by simp [hsplit]⟩) hlt

theorem lastKey?_eq_some_iff {m : OrderedMap κ α} {k : κ} :
    m.lastKey? = some k ↔ k ∈ m.keys ∧ ∀ j ∈ m.keys, ¬ k < j := by
  rw [lastKey?_eq_map, Option.map_eq_some_iff, mem_keys_iff_get?]
  constructor
  · rintro ⟨⟨k', a⟩, he, rfl⟩
    obtain ⟨hget, hmax⟩ := lastEntry?_eq_some_iff.1 he
    exact ⟨⟨a, hget⟩, hmax⟩
  · rintro ⟨⟨a, hget⟩, hmax⟩
    exact ⟨(k, a), lastEntry?_eq_some_iff.2 ⟨hget, hmax⟩, rfl⟩

omit [DecidableEq κ] in
theorem firstKey?_eq_some_iff {m : OrderedMap κ α} {k : κ} :
    m.firstKey? = some k ↔ k ∈ m.keys ∧ ∀ j ∈ m.keys, ¬ j < k := by
  have hasc := m.pairwise_keys
  rw [firstKey?]
  cases hkeys : m.keys with
  | nil => simp
  | cons j rest =>
      rw [hkeys] at hasc
      have hj := (List.pairwise_cons.1 hasc).1
      simp only [List.head?_cons, Option.some.injEq, List.mem_cons]
      constructor
      · rintro rfl
        refine ⟨.inl rfl, ?_⟩
        rintro i (rfl | hi) hlt
        · exact KeyOrder.irrefl _ hlt
        · exact KeyOrder.irrefl _ (KeyOrder.trans hlt (hj i hi))
      · rintro ⟨rfl | hk, hmin⟩
        · rfl
        · exact absurd (hj k hk) (hmin j (.inl rfl))

omit [DecidableEq κ] in
/-- A map with a key has a first one. -/
theorem exists_firstKey? {m : OrderedMap κ α} {k : κ} (h : k ∈ m.keys) :
    ∃ j, m.firstKey? = some j ∧ ¬ k < j := by
  cases hj : m.firstKey? with
  | none =>
      rw [firstKey?, List.head?_eq_none_iff] at hj
      rw [hj] at h
      cases h
  | some j => exact ⟨j, rfl, (firstKey?_eq_some_iff.1 hj).2 k h⟩

/-! ## Adding entries -/

variable [DecidableLT κ]

theorem find?_insertEntry (k : κ) (a : α) (l : List (κ × α)) (j : κ) :
    (insertEntry k a l).find? (fun e => e.1 = j)
      = if j = k then some (k, a) else l.find? (fun e => e.1 = j) := by
  induction l with
  | nil =>
      by_cases h : j = k
      · simp [insertEntry, h]
      · simp [insertEntry, h, Ne.symm h]
  | cons e rest ih =>
      unfold insertEntry
      split
      · -- The new entry goes in front.
        by_cases h : j = k
        · simp [h]
        · simp [h, Ne.symm h]
      · rename_i hlt
        split
        · -- It goes into the rest.
          rename_i hgt
          have hne : e.1 ≠ k := fun heq => KeyOrder.irrefl k (heq ▸ hgt)
          by_cases hj : e.1 = j
          · subst hj
            simp [hne]
          · rw [List.find?_cons_of_neg (by simpa using hj), ih,
              List.find?_cons_of_neg (by simpa using hj)]
        · -- It takes the place of the first one.
          rename_i hngt
          have heq : k = e.1 := by
            rcases KeyOrder.connex k e.1 with h | h | h
            · exact absurd h hlt
            · exact h
            · exact absurd h hngt
          by_cases h : j = k
          · simp [h]
          · rw [if_neg h, List.find?_cons_of_neg (by simpa using Ne.symm h),
              List.find?_cons_of_neg (by simpa [← heq] using Ne.symm h)]

theorem get?_insert (m : OrderedMap κ α) (k : κ) (a : α) (j : κ) :
    (m.insert k a).get? j = if j = k then some a else m.get? j := by
  simp only [get?, insert, find?_insertEntry]
  split <;> simp

@[simp] theorem get?_insert_self (m : OrderedMap κ α) (k : κ) (a : α) :
    (m.insert k a).get? k = some a := by
  simp [get?_insert]

theorem get?_insert_of_ne {m : OrderedMap κ α} {k j : κ} {a : α} (h : j ≠ k) :
    (m.insert k a).get? j = m.get? j := by
  simp [get?_insert, h]

/-- Storing what is stored already changes nothing. -/
theorem insert_eq_self {m : OrderedMap κ α} {k : κ} {a : α} (h : m.get? k = some a) :
    m.insert k a = m := by
  have hentries : ∀ l : List (κ × α), l.Pairwise (fun a b => a.1 < b.1) → (k, a) ∈ l →
      insertEntry k a l = l := by
    intro l hasc hmem
    induction l with
    | nil => cases hmem
    | cons e rest ih =>
        obtain ⟨hlt, hrest⟩ := List.pairwise_cons.1 hasc
        rw [insertEntry]
        rcases List.mem_cons.1 hmem with rfl | hmem
        · rw [if_neg (KeyOrder.irrefl _), if_neg (KeyOrder.irrefl _)]
        · have hek : e.1 < k := hlt _ hmem
          have hke : ¬ k < e.1 := fun hke => KeyOrder.irrefl k (KeyOrder.trans hke hek)
          rw [if_neg hke, if_pos hek, ih hrest hmem]
  exact ext (hentries m.entries m.ascending (get?_eq_some_iff.1 h))

/-- An entry before the last one leaves that in place. -/
theorem lastEntry?_insert_of_lt {m : OrderedMap κ α} {k last : κ} {a b : α}
    (h : m.lastEntry? = some (last, a)) (hk : k < last) :
    lastEntry? (m.insert k b) = some (last, a) := by
  obtain ⟨hget, hmax⟩ := lastEntry?_eq_some_iff.1 h
  have hne : last ≠ k := fun heq => KeyOrder.irrefl k (by simpa [heq] using hk)
  rw [lastEntry?_eq_some_iff]
  refine ⟨by rw [get?_insert_of_ne hne, hget], fun j hj => ?_⟩
  rw [mem_keys_iff_get?, get?_insert] at hj
  split at hj
  · rename_i hjk
    exact fun hlt => KeyOrder.irrefl k (KeyOrder.trans hk (hjk ▸ hlt))
  · exact hmax j (mem_keys_iff_get?.2 hj)

theorem get?_insertNew (m : OrderedMap κ α) (k : κ) (a : α) (j : κ) :
    (m.insertNew k a).get? j = if j = k then (m.get? j).or (some a) else m.get? j := by
  unfold insertNew
  by_cases hc : m.contains k
  · obtain ⟨b, hb⟩ := contains_iff.1 hc
    by_cases hj : j = k
    · simp [hc, hj, hb]
    · simp [hc, hj]
  · have hnone : m.get? k = none := by simpa [contains] using hc
    rw [if_neg hc, get?_insert]
    by_cases hj : j = k
    · simp [hj, hnone]
    · simp [hj]

theorem mem_keys_insertNew {m : OrderedMap κ α} {k j : κ} {a : α} :
    j ∈ (m.insertNew k a).keys ↔ j = k ∨ j ∈ m.keys := by
  simp only [mem_keys_iff_get?, get?_insertNew]
  by_cases hj : j = k
  · cases m.get? j <;> simp [hj]
  · simp [hj]

/-- The last of several entries for a key counts, and entries hide what was
    there before. -/
theorem get?_foldl_insert (l : List (κ × α)) (m : OrderedMap κ α) (k : κ) :
    (l.foldl (fun m e => m.insert e.1 e.2) m).get? k
      = ((l.reverse.find? (fun e => e.1 = k)).map (·.2)).or (m.get? k) := by
  induction l generalizing m with
  | nil => simp
  | cons e rest ih =>
      rw [List.foldl_cons, ih, List.reverse_cons, List.find?_append, get?_insert]
      cases rest.reverse.find? (fun e => e.1 = k) with
      | some found => simp
      | none =>
          by_cases h : k = e.1
          · simp [h]
          · simp [h, Ne.symm h]

theorem get?_ofList (l : List (κ × α)) (k : κ) :
    (ofList l).get? k = (l.reverse.find? (fun e => e.1 = k)).map (·.2) := by
  simp [ofList, get?_foldl_insert]

theorem mem_of_get?_ofList {l : List (κ × α)} {k : κ} {a : α} (h : (ofList l).get? k = some a) :
    (k, a) ∈ l := by
  rw [get?_ofList, Option.map_eq_some_iff] at h
  obtain ⟨⟨j, b⟩, hfind, rfl⟩ := h
  have hj : j = k := by simpa using List.find?_some hfind
  exact hj ▸ List.mem_reverse.1 (List.mem_of_find?_eq_some hfind)

theorem get?_ofList_cons (k : κ) (a : α) (l : List (κ × α)) (j : κ) :
    (ofList ((k, a) :: l)).get? j
      = ((ofList l).get? j).or (if j = k then some a else none) := by
  rw [ofList, List.foldl_cons, get?_foldl_insert, get?_ofList, get?_insert, get?_empty]

theorem get?_override (m n : OrderedMap κ α) (k : κ) :
    (m.override n).get? k = (n.get? k).or (m.get? k) := by
  -- The last insertion wins, and the keys of `n` are distinct.
  rw [override, get?_foldl_insert]
  congr 1
  apply Option.ext
  intro a
  rw [get?_eq_some_iff, Option.map_eq_some_iff]
  constructor
  · rintro ⟨⟨k', a'⟩, hfind, rfl⟩
    have hk : k' = k := by simpa using List.find?_some hfind
    subst hk
    simpa using List.mem_of_find?_eq_some hfind
  · intro hmem
    obtain ⟨e, he⟩ : ∃ e, n.entries.reverse.find? (fun e => e.1 = k) = some e := by
      rw [← Option.isSome_iff_exists, List.find?_isSome]
      exact ⟨(k, a), by simpa using hmem, by simp⟩
    have hk : e.1 = k := by simpa using List.find?_some he
    have hfound : (k, e.2) ∈ n.entries := by
      have := List.mem_of_find?_eq_some he
      rw [← hk]
      simpa using this
    -- Both entries sit under `k`, so they hold the same value.
    have ha : n.get? k = some a := get?_eq_some_iff.2 hmem
    have he' : n.get? k = some e.2 := get?_eq_some_iff.2 hfound
    exact ⟨e, he, Option.some.inj (he'.symm.trans ha)⟩

/-- Entries that are in order already stay as they are. -/
theorem entries_ofList {l : List (κ × α)} (h : l.Pairwise (fun a b => a.1 < b.1)) :
    (ofList l).entries = l := by
  have hsame : ofList l = ⟨l, h⟩ := by
    apply ext_get?
    intro k
    rw [show ofList l = empty.override ⟨l, h⟩ from rfl, get?_override, get?_empty, Option.or_none]
  rw [hsame]

/-- A map is built anew from its entries. -/
theorem ofList_entries (m : OrderedMap κ α) : ofList m.entries = m :=
  ext (entries_ofList m.ascending)

/-- A map built from ascending keys has these keys. -/
theorem keys_ofList_map {l : List κ} (hasc : l.Pairwise (· < ·)) (g : κ → α) :
    (ofList (l.map fun k => (k, g k))).keys = l := by
  have hentries : (l.map fun k => (k, g k)).Pairwise (fun a b => a.1 < b.1) :=
    List.pairwise_map.2 hasc
  rw [keys, entries_ofList hentries, List.map_map]
  exact List.map_id l

/-- It stores under each of them what it has been built from. -/
theorem get?_ofList_map {l : List κ} (hasc : l.Pairwise (· < ·)) (g : κ → α) {k : κ} {a : α} :
    (ofList (l.map fun k => (k, g k))).get? k = some a ↔ k ∈ l ∧ a = g k := by
  have hentries : (l.map fun k => (k, g k)).Pairwise (fun a b => a.1 < b.1) :=
    List.pairwise_map.2 hasc
  rw [get?_eq_some_iff, entries_ofList hentries, List.mem_map]
  constructor
  · rintro ⟨j, hj, heq⟩
    obtain ⟨rfl, rfl⟩ := Prod.mk.inj heq
    exact ⟨hj, rfl⟩
  · rintro ⟨hk, rfl⟩
    exact ⟨k, hk, rfl⟩

/-! ## Entries as a collection -/

/-- An entry under a new key comes to the others. -/
theorem entries_insert_perm {m : OrderedMap κ α} {k : κ} (h : m.get? k = none) (a : α) :
    (m.insert k a).entries.Perm ((k, a) :: m.entries) := by
  have hnew : (k, a) ∉ m.entries := fun hmem => by
    rw [get?_eq_some_iff.2 hmem] at h
    cases h
  rw [List.perm_ext_iff_of_nodup (nodup_entries _)
    (List.nodup_cons.2 ⟨hnew, m.nodup_entries⟩)]
  rintro ⟨j, b⟩
  rw [List.mem_cons, ← get?_eq_some_iff, get?_insert, ← get?_eq_some_iff, Prod.mk.injEq]
  by_cases hj : j = k
  · subst hj
    simp [h, eq_comm]
  · simp [hj]

omit [DecidableLT κ] in
/-- An entry that is removed leaves the others. -/
theorem entries_perm_erase {m : OrderedMap κ α} {k : κ} {a : α} (h : m.get? k = some a) :
    m.entries.Perm ((k, a) :: (m.erase k).entries) := by
  have hgone : (k, a) ∉ (m.erase k).entries := fun hmem => by
    have := get?_eq_some_iff.2 hmem
    rw [get?_erase, if_pos rfl] at this
    cases this
  rw [List.perm_ext_iff_of_nodup m.nodup_entries
    (List.nodup_cons.2 ⟨hgone, nodup_entries _⟩)]
  rintro ⟨j, b⟩
  rw [List.mem_cons, ← get?_eq_some_iff, ← get?_eq_some_iff, get?_erase, Prod.mk.injEq]
  by_cases hj : j = k
  · subst hj
    simp [h, eq_comm]
  · simp [hj]

end OrderedMap
end SiteDispatch
