/-
  SiteDispatch.OrderedMap.Basic

  Finite maps whose entries are kept in strictly ascending key order. Profiles,
  corridors, timelines, task tables and everything keyed by device are such
  maps; most of them are read as step functions: the entry *in force* at a key
  is the last one at or before it.

  The representation is a sorted list, so two maps with the same entries are
  equal, and iteration order is key order.
-/

namespace SiteDispatch

/-- A strict total order on keys. -/
class KeyOrder (κ : Type) [LT κ] : Prop where
  irrefl (a : κ) : ¬ a < a
  trans {a b c : κ} : a < b → b < c → a < c
  connex (a b : κ) : a < b ∨ a = b ∨ b < a

instance : KeyOrder Int where
  irrefl := Int.lt_irrefl
  trans := Int.lt_trans
  connex := Int.lt_trichotomy

/-- Entries in strictly ascending key order. -/
structure OrderedMap (κ α : Type) [LT κ] where
  entries : List (κ × α)
  ascending : entries.Pairwise (fun a b => a.1 < b.1)

namespace OrderedMap

section

variable {κ α β : Type} [LT κ]

@[ext] theorem ext {m n : OrderedMap κ α} (h : m.entries = n.entries) : m = n := by
  cases m; cases n; cases h; rfl

instance [DecidableEq κ] [DecidableEq α] : DecidableEq (OrderedMap κ α) := fun m n =>
  decidable_of_iff (m.entries = n.entries) ⟨ext, congrArg entries⟩

/-- The map without entries. -/
def empty : OrderedMap κ α := ⟨[], .nil⟩

instance : EmptyCollection (OrderedMap κ α) := ⟨empty⟩
instance : Inhabited (OrderedMap κ α) := ⟨empty⟩

/-- The map with the one entry `k ↦ a`. -/
def singleton (k : κ) (a : α) : OrderedMap κ α := ⟨[(k, a)], List.pairwise_singleton _ _⟩

/-- The keys, ascending. -/
def keys (m : OrderedMap κ α) : List κ := m.entries.map (·.1)

/-- The values, by ascending key. -/
def values (m : OrderedMap κ α) : List α := m.entries.map (·.2)

/-- The number of entries. -/
def size (m : OrderedMap κ α) : Nat := m.entries.length

/-- Whether there are no entries. -/
def isEmpty (m : OrderedMap κ α) : Bool := m.entries.isEmpty

/-- The least key. -/
def firstKey? (m : OrderedMap κ α) : Option κ := m.keys.head?

/-- The entry with the greatest key. -/
def lastEntry? (m : OrderedMap κ α) : Option (κ × α) := m.entries.getLast?

/-- The greatest key. -/
def lastKey? (m : OrderedMap κ α) : Option κ := m.keys.getLast?

/-- The entries that satisfy `p`. -/
def filter (p : κ → α → Bool) (m : OrderedMap κ α) : OrderedMap κ α :=
  ⟨m.entries.filter (fun e => p e.1 e.2), m.ascending.filter _⟩

/-- The same keys with other values. -/
def mapValues (f : κ → α → β) (m : OrderedMap κ α) : OrderedMap κ β :=
  ⟨m.entries.map (fun e => (e.1, f e.1 e.2)), by
    rw [List.pairwise_map]; exact m.ascending⟩

variable [DecidableLT κ]

/-- Value stored under `k`. -/
def get? [DecidableEq κ] (m : OrderedMap κ α) (k : κ) : Option α :=
  (m.entries.find? (fun e => e.1 = k)).map (·.2)

/-- Whether there is an entry at `k`. -/
def contains [DecidableEq κ] (m : OrderedMap κ α) (k : κ) : Bool := (m.get? k).isSome

/-- The map without its entry at `k`. -/
def erase [DecidableEq κ] (m : OrderedMap κ α) (k : κ) : OrderedMap κ α :=
  m.filter (fun k' _ => k' ≠ k)

/-- Last entry with a key at or before `k`. -/
def floorEntry? (m : OrderedMap κ α) (k : κ) : Option (κ × α) :=
  (m.entries.takeWhile (fun e => ¬ k < e.1)).getLast?

/-- First entry with a key after `k`. -/
def higherEntry? (m : OrderedMap κ α) (k : κ) : Option (κ × α) :=
  m.entries.find? (fun e => k < e.1)

/-- Value in force at `k` when the map is read as a step function. -/
def floorValue? (m : OrderedMap κ α) (k : κ) : Option α := (m.floorEntry? k).map (·.2)

/-- First key after `k`. -/
def higherKey? (m : OrderedMap κ α) (k : κ) : Option κ := (m.higherEntry? k).map (·.1)

/-- Sorted insertion; an entry with the same key is replaced. -/
def insertEntry (k : κ) (a : α) : List (κ × α) → List (κ × α)
  | [] => [(k, a)]
  | e :: rest =>
    if k < e.1 then (k, a) :: e :: rest
    else if e.1 < k then e :: insertEntry k a rest
    else (k, a) :: rest

theorem eq_or_mem_of_mem_insertEntry {k : κ} {a : α} {x : κ × α} {l : List (κ × α)}
    (h : x ∈ insertEntry k a l) : x = (k, a) ∨ x ∈ l := by
  induction l with
  | nil => simpa [insertEntry] using h
  | cons e rest ih =>
    unfold insertEntry at h
    split at h
    · simpa using h
    · split at h
      · rcases List.mem_cons.1 h with rfl | h
        · simp
        · rcases ih h with h | h <;> simp [h]
      · rcases List.mem_cons.1 h with rfl | h <;> simp_all

variable [KeyOrder κ]

theorem pairwise_insertEntry (k : κ) (a : α) {l : List (κ × α)}
    (h : l.Pairwise (fun a b => a.1 < b.1)) :
    (insertEntry k a l).Pairwise (fun a b => a.1 < b.1) := by
  induction l with
  | nil => exact List.pairwise_singleton _ _
  | cons e rest ih =>
    obtain ⟨he, hrest⟩ := List.pairwise_cons.1 h
    unfold insertEntry
    split
    · rename_i hk
      refine List.pairwise_cons.2 ⟨fun x hx => ?_, h⟩
      rcases List.mem_cons.1 hx with rfl | hx
      · exact hk
      · exact KeyOrder.trans hk (he x hx)
    · rename_i hk
      split
      · rename_i hk'
        refine List.pairwise_cons.2 ⟨fun x hx => ?_, ih hrest⟩
        rcases eq_or_mem_of_mem_insertEntry hx with rfl | hx
        · exact hk'
        · exact he x hx
      · rename_i hk'
        have hek : e.1 = k := by
          rcases KeyOrder.connex k e.1 with h | h | h
          · exact absurd h hk
          · exact h.symm
          · exact absurd h hk'
        exact List.pairwise_cons.2 ⟨fun x hx => hek ▸ he x hx, hrest⟩

/-- `m` with `a` stored under `k`, whatever was there before. -/
def insert (m : OrderedMap κ α) (k : κ) (a : α) : OrderedMap κ α :=
  ⟨insertEntry k a m.entries, pairwise_insertEntry k a m.ascending⟩

/-- `m` with `a` stored under `k` unless something is there already. -/
def insertNew [DecidableEq κ] (m : OrderedMap κ α) (k : κ) (a : α) : OrderedMap κ α :=
  if m.contains k then m else m.insert k a

/-- Later entries replace earlier ones with the same key. -/
def ofList (l : List (κ × α)) : OrderedMap κ α := l.foldl (fun m e => m.insert e.1 e.2) empty

/-- `m` overridden by the entries of `n`. -/
def override (m n : OrderedMap κ α) : OrderedMap κ α :=
  n.entries.foldl (fun m e => m.insert e.1 e.2) m

/-- `m` with the value under `k`, if any, replaced by its image. -/
def modify [DecidableEq κ] (m : OrderedMap κ α) (k : κ) (f : α → α) : OrderedMap κ α :=
  m.mapValues (fun k' a => if k' = k then f a else a)

end

end OrderedMap
end SiteDispatch
