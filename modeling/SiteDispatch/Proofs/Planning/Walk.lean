/-
  SiteDispatch.Proofs.Planning.Walk

  The way through a planning window, piece by piece.

  `Consecutive` is what everything that is planned or evaluated along a way relies
  on: the pieces follow each other without a gap, each of them makes progress, and
  none passes a key of a corridor. It holds of every way on a grid of slots that
  have a length, wherever the window begins against the grid.
-/

import SiteDispatch.Planning.Walk
import SiteDispatch.Proofs.OrderedMap.StepFunction

namespace SiteDispatch

/-! ## The next offset -/

section NextOffset

variable {power energy : Corridor} {last slotStop here : Int}

theorem capped_le_key {m : Corridor} {x k : Int} (hk : k ∈ m.keys) (hlt : here < k) :
    capped x (m.higherKey? here) ≤ k := by
  cases hkey : m.higherKey? here with
  | none =>
      have := OrderedMap.higherKey?_eq_none_iff.1 hkey k hk
      omega
  | some key =>
      have := (OrderedMap.higherKey?_eq_some_iff.1 hkey).2.2 k hk hlt
      simp only [capped]
      omega

theorem here_lt_nextOffset (hlast : here < last) (hslot : here < slotStop) :
    here < nextOffset power energy last slotStop here :=
  lt_capped (fun _ => lt_of_higherKey?_eq_some)
    (lt_capped (fun _ => lt_of_higherKey?_eq_some) (by omega))

theorem nextOffset_le_min (power energy : Corridor) (last slotStop here : Int) :
    nextOffset power energy last slotStop here ≤ min slotStop last :=
  Int.le_trans (capped_le _ _) (capped_le _ _)

/-- Inside a task an offset loses no bits. -/
theorem low32_nextOffset (hlast : last ≤ Quantity.greatest) (hhere : 0 ≤ here)
    (hgo : here < last) (hslot : here < slotStop) :
    Quantity.low32 (nextOffset power energy last slotStop here)
      = nextOffset power energy last slotStop here := by
  have hlt : here < nextOffset power energy last slotStop here := here_lt_nextOffset hgo hslot
  have hle := nextOffset_le_min power energy last slotStop here
  exact Quantity.low32_eq_self (by simp only [Quantity.least]; omega) (by omega)

/-- The walk stops at every key of the two corridors. -/
theorem nextOffset_le_key {k : Int} (hk : k ∈ power.keys ∨ k ∈ energy.keys) (hlt : here < k) :
    nextOffset power energy last slotStop here ≤ k := by
  rcases hk with hk | hk
  · exact Int.le_trans (capped_le _ _) (capped_le_key hk hlt)
  · exact capped_le_key hk hlt

end NextOffset

/-! ## Pieces in a row -/

/-- The pieces lead from `here` on without a gap and end by `last`; keys of the
    corridors lie at the ends of pieces only. -/
def Consecutive (power energy : Corridor) (last : Int) : Int → List Piece → Prop
  | _, [] => True
  | here, p :: rest =>
    p.start = here ∧ here < p.stop ∧ p.stop ≤ last ∧
      (∀ k, k ∈ power.keys ∨ k ∈ energy.keys → here < k → p.stop ≤ k) ∧
      Consecutive power energy last p.stop rest

/-- The offset to which pieces lead. -/
def arrival : Int → List Piece → Int
  | here, [] => here
  | _, p :: rest => arrival p.stop rest

theorem Consecutive.arrival_le {power energy : Corridor} {last : Int} :
    ∀ {here : Int} {way : List Piece}, Consecutive power energy last here way →
      way ≠ [] → arrival here way ≤ last
  | _, [p], h, _ => h.2.2.1
  | _, p :: q :: rest, h, _ =>
      have hrest : Consecutive power energy last p.stop (q :: rest) := h.2.2.2.2
      hrest.arrival_le (by simp)

theorem Consecutive.le_arrival {power energy : Corridor} {last : Int} :
    ∀ {here : Int} {way : List Piece}, Consecutive power energy last here way →
      here ≤ arrival here way
  | here, [], _ => Int.le_refl here
  | _, p :: rest, h =>
      have hrest : Consecutive power energy last p.stop rest := h.2.2.2.2
      Int.le_trans (Int.le_of_lt h.2.1) hrest.le_arrival

/-- Every way is consecutive: slots of positive length leave room for progress. -/
theorem consecutive_pieces (power energy : Corridor) {slotLength last : Int} (slots : Nat)
    (hlength : 1 ≤ slotLength) (hlast : last ≤ Quantity.greatest) (here : Int) (slot : Nat)
    (slotStop : Int) (hhere : 0 ≤ here) (hstop : here < slotStop) :
    Consecutive power energy last here
      (pieces power energy slotLength last slots here slot slotStop) := by
  fun_induction pieces power energy slotLength last slots here slot slotStop with
  | case1 here slot slotStop hgo next hnext ih =>
      -- The piece ends its slot: the next slot begins where it ends.
      have hlt : here < next := here_lt_nextOffset hgo.1 hstop
      have hle : next ≤ min slotStop last := nextOffset_le_min power energy last slotStop here
      have hkeep : Quantity.low32 next = next := low32_nextOffset hlast hhere hgo.1 hstop
      refine ⟨rfl, hlt, show next ≤ last by omega, fun k hk => nextOffset_le_key hk, ?_⟩
      rw [hkeep] at ih ⊢
      exact ih (by omega) (by omega)
  | case2 here slot slotStop hgo next hnext ih =>
      -- A key or the end comes before the slot is over.
      have hlt : here < next := here_lt_nextOffset hgo.1 hstop
      have hle : next ≤ min slotStop last := nextOffset_le_min power energy last slotStop here
      refine ⟨rfl, hlt, show next ≤ last by omega, fun k hk => nextOffset_le_key hk, ?_⟩
      exact ih (by omega) (by omega)
  | case3 => trivial

/-- The walk goes on where its last piece ends. -/
theorem resumesAt_eq_arrival {power energy : Corridor} {last : Int}
    (hlast : last ≤ Quantity.greatest) :
    ∀ {here : Int} {way : List Piece}, 0 ≤ here → Consecutive power energy last here way →
      (way.getLast?.map Piece.resumesAt).getD here = arrival here way
  | _, [], _, _ => rfl
  | here, [p], h0, hway => by
      obtain ⟨-, hlt, hle, -, -⟩ := hway
      have hkeep : Quantity.low32 p.stop = p.stop :=
        Quantity.low32_eq_self (by simp only [Quantity.least]; omega) (by omega)
      simp [arrival, Piece.resumesAt, hkeep]
  | here, p :: q :: rest, h0, hway => by
      obtain ⟨-, hlt, -, -, hrest⟩ := hway
      have ih := resumesAt_eq_arrival hlast (by omega) hrest
      rw [List.getLast?_cons_cons, arrival, ← ih, List.getLast?_eq_some_getLast (by simp)]
      rfl

/-! ## The walk of a task -/

namespace PlanningWindow

/-- Offset at which planning of a task starts. -/
def entry (w : PlanningWindow) (task : Task) : Int :=
  max w.start task.startingTime - task.startingTime

variable {w : PlanningWindow} {task : Task}

theorem entry_nonneg (w : PlanningWindow) (task : Task) : 0 ≤ w.entry task := by
  simp only [entry]
  omega

theorem walk_start (h : w.entry task ≤ Quantity.greatest) : (w.walk task).start = w.entry task := by
  have h0 := entry_nonneg w task
  exact Quantity.low32_eq_self (by simp only [Quantity.least]; omega) h

theorem walk_last_le (w : PlanningWindow) (task : Task) :
    (w.walk task).last ≤ task.runningTime :=
  Int.min_le_right _ _

/-- The first slot ends after the walk begins, also if the window begins before its
    origin. -/
theorem entry_lt_slotStop (hlength : 1 ≤ w.slotLength) :
    w.entry task < (w.walk task).slotStop := by
  simp only [entry, walk]
  generalize max w.start task.startingTime = start
  by_cases hneg : start < w.origin
  · -- Division towards zero leaves nothing below the origin, so this is the first slot.
    have hdiv : (start - w.origin).tdiv w.slotLength ≤ 0 := by
      have hback : 0 ≤ (w.origin - start).tdiv w.slotLength :=
        Int.tdiv_nonneg (by omega) (by omega)
      rw [← Int.neg_sub, Int.neg_tdiv]
      omega
    rw [Int.max_eq_right hdiv]
    simp only [Int.toNat_zero, Int.natCast_zero, Int.zero_add, Int.one_mul]
    omega
  · have hdiv : (start - w.origin).tdiv w.slotLength = (start - w.origin) / w.slotLength :=
      Int.tdiv_eq_ediv_of_nonneg (by omega)
    have hnonneg : 0 ≤ (start - w.origin) / w.slotLength :=
      Int.ediv_nonneg (by omega) (by omega)
    have hlt := Int.lt_ediv_add_one_mul_self (start - w.origin) (b := w.slotLength) (by omega)
    rw [hdiv, Int.max_eq_left hnonneg, Int.toNat_of_nonneg hnonneg]
    omega

theorem consecutive_piecesOf (hlength : 1 ≤ w.slotLength)
    (hentry : w.entry task ≤ Quantity.greatest) (hrun : task.runningTime ≤ Quantity.greatest)
    (power energy : Corridor) (slots : Nat) :
    Consecutive power energy (w.walk task).last (w.entry task)
      (w.piecesOf power energy slots task) := by
  have hlast := walk_last_le w task
  rw [piecesOf, walk_start hentry]
  exact consecutive_pieces power energy slots hlength (by omega) _ _ _ (entry_nonneg w task)
    (entry_lt_slotStop hlength)

end PlanningWindow
end SiteDispatch
