/-
  SiteDispatch.Planning.Walk

  The way through a planning window. A task is planned and evaluated in pieces
  that end at the next slot boundary, corridor breakpoint or end of the window,
  whichever comes first. The pieces depend on the grid and on the breakpoints
  alone, not on the power chosen for them.
-/

import SiteDispatch.Flexibility.Basic

namespace SiteDispatch

/-- Time frame of an allocation run. -/
structure PlanningWindow where
  /-- Start of slot 0. -/
  origin : Int
  start : Int
  stop : Int
  slotLength : Int
  /-- Tasks that start before this are only planned anew when adaptable. -/
  earliestModifiable : Int
  /-- Ws kept free on both sides of the energy corridors. -/
  buffer : Int
deriving DecidableEq

/-- Part of a task inside one slot over which nothing changes. Instants are
    offsets from the start of the task. -/
structure Piece where
  start : Int
  stop : Int
  slot : Nat
  /-- Whether the piece ends with its slot. -/
  closesSlot : Bool
deriving DecidableEq, Repr

namespace Piece

/-- Seconds that the piece takes. -/
def length (p : Piece) : Int := p.stop - p.start

/-- Offset at which the walk goes on. -/
def resumesAt (p : Piece) : Int := if p.closesSlot then Quantity.low32 p.stop else p.stop

/-- Slot in which the walk goes on. -/
def nextSlot (p : Piece) : Nat := if p.closesSlot then p.slot + 1 else p.slot

end Piece

/-- `x`, or the key if there is an earlier one. -/
def capped (x : Int) : Option Int → Int
  | some key => min x key
  | none => x

/-- The earliest of a slot boundary, the end of the walk and the next keys of the
    two corridors. -/
def nextOffset (power energy : Corridor) (last slotStop here : Int) : Int :=
  capped (capped (min slotStop last) (power.higherKey? here)) (energy.higherKey? here)

theorem lt_of_higherKey?_eq_some {α : Type} {m : OrderedMap Int α} {k key : Int}
    (h : m.higherKey? k = some key) : k < key := by
  simp only [OrderedMap.higherKey?, OrderedMap.higherEntry?, Option.map_eq_some_iff] at h
  obtain ⟨e, he, rfl⟩ := h
  simpa using List.find?_some he

theorem lt_capped {here x : Int} {key : Option Int} (hk : ∀ k, key = some k → here < k)
    (hx : here < x) : here < capped x key := by
  cases key with
  | none => exact hx
  | some k => have := hk k rfl; simp only [capped]; omega

theorem capped_le (x : Int) (key : Option Int) : capped x key ≤ x := by
  cases key with
  | none => exact Int.le_refl x
  | some k => exact Int.min_le_left x k

/-- A step that does not end at the slot boundary advances. -/
theorem lt_nextOffset {power energy : Corridor} {last slotStop here : Int} (h : here < last)
    (hs : nextOffset power energy last slotStop here ≠ slotStop) :
    here < nextOffset power energy last slotStop here := by
  by_cases hb : here < slotStop
  · exact lt_capped (fun _ => lt_of_higherKey?_eq_some)
      (lt_capped (fun _ => lt_of_higherKey?_eq_some) (by omega))
  · -- The boundary lies behind, so no key comes before it.
    exfalso
    apply hs
    have hle : min slotStop last = slotStop := by omega
    have keep : ∀ key : Option Int, (∀ k, key = some k → here < k) →
        capped slotStop key = slotStop := by
      intro key hk
      cases key with
      | none => rfl
      | some k => have := hk k rfl; simp only [capped]; omega
    simp only [nextOffset, hle]
    rw [keep _ fun _ => lt_of_higherKey?_eq_some, keep _ fun _ => lt_of_higherKey?_eq_some]

/-- The pieces from offset `here` in `slot`, which ends at `slotStop`, up to `last`
    or the last of `slots` slots. -/
def pieces (power energy : Corridor) (slotLength last : Int) (slots : Nat)
    (here : Int) (slot : Nat) (slotStop : Int) : List Piece :=
  if here < last ∧ slot < slots then
    let next := nextOffset power energy last slotStop here
    if next = slotStop then
      ⟨here, next, slot, true⟩ ::
        pieces power energy slotLength last slots (Quantity.low32 next) (slot + 1)
          (slotStop + slotLength)
    else
      ⟨here, next, slot, false⟩ ::
        pieces power energy slotLength last slots next slot slotStop
  else []
termination_by (slots - slot, (last - here).toNat)
decreasing_by
  · rename_i h _
    exact Prod.Lex.left _ _ (by omega)
  · rename_i h hs
    have := @lt_nextOffset power energy last slotStop here h.1 hs
    exact Prod.Lex.right _ (by omega)

/-- Where the walk of a task through a window begins and what bounds it. -/
structure Walk where
  start : Int
  slot : Nat
  slotStop : Int
  last : Int
deriving DecidableEq, Repr

namespace PlanningWindow

/-- The walk of a task: from the later of the two starts to the earlier of the two
    ends, slots being counted from the window's origin. -/
def walk (w : PlanningWindow) (task : Task) : Walk :=
  let start := max w.start task.startingTime
  let slot := (max ((start - w.origin).tdiv w.slotLength) 0).toNat
  { start := Quantity.low32 (start - task.startingTime)
    slot := slot
    slotStop := w.origin + (slot + 1) * w.slotLength - task.startingTime
    last := min (w.stop - task.startingTime) task.runningTime }

/-- The pieces of a task between the breakpoints of two corridors. -/
def piecesOf (w : PlanningWindow) (power energy : Corridor) (slots : Nat) (task : Task) :
    List Piece :=
  let walk := w.walk task
  pieces power energy w.slotLength walk.last slots walk.start walk.slot walk.slotStop

end PlanningWindow
end SiteDispatch
