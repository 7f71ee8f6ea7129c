/-
  SiteDispatch.Proofs.Planning.Slots

  The way through a planning window, slot by slot.

  Slots follow each other on the grid of the window, and a task sees them at offsets
  from its own start. Every piece of its way lies in one slot, and a piece closes the
  slot exactly if it ends where the next slot begins. What each piece keeps, a whole
  way keeps from the slot in which the task is entered on.
-/

import SiteDispatch.Proofs.Planning.Walk

namespace SiteDispatch

/-! ## The grid -/

namespace PlanningWindow

/-- First instant of a slot. -/
def slotStart (w : PlanningWindow) (slot : Nat) : Int := w.origin + slot * w.slotLength

/-- Offset from the start of a task at which a slot begins. -/
def slotOffset (w : PlanningWindow) (task : Task) (slot : Nat) : Int :=
  w.slotStart slot - task.startingTime

variable {w : PlanningWindow} {task : Task}

theorem slotOffset_succ (w : PlanningWindow) (task : Task) (slot : Nat) :
    w.slotOffset task (slot + 1) = w.slotOffset task slot + w.slotLength := by
  simp only [slotOffset, slotStart, Int.natCast_add, Int.natCast_one, Int.add_mul, Int.one_mul]
  omega

/-- The first slot of the walk ends where the next one begins. -/
theorem slotOffset_walk_succ (w : PlanningWindow) (task : Task) :
    w.slotOffset task ((w.walk task).slot + 1) = (w.walk task).slotStop := rfl

/-- In a window that does not begin before its origin, a task is entered in the first slot
    of its walk. -/
theorem slotOffset_walk_le (hlength : 1 ≤ w.slotLength) (horigin : w.origin ≤ w.start) :
    w.slotOffset task (w.walk task).slot ≤ w.entry task := by
  simp only [slotOffset, slotStart, entry, walk]
  have hstart : w.origin ≤ max w.start task.startingTime := by omega
  generalize max w.start task.startingTime = start at hstart ⊢
  have hdiv : (start - w.origin).tdiv w.slotLength = (start - w.origin) / w.slotLength :=
    Int.tdiv_eq_ediv_of_nonneg (by omega)
  have hnonneg : 0 ≤ (start - w.origin) / w.slotLength := Int.ediv_nonneg (by omega) (by omega)
  have hle := Int.ediv_mul_le (start - w.origin) (show w.slotLength ≠ 0 by omega)
  rw [hdiv, Int.max_eq_left hnonneg, Int.toNat_of_nonneg hnonneg]
  omega

end PlanningWindow

/-! ## Pieces in their slots -/

/-- A piece that makes progress inside its slot. -/
structure Piece.InSlot (begins : Nat → Int) (p : Piece) : Prop where
  forward : p.start < p.stop
  opens : begins p.slot ≤ p.start
  within : p.stop ≤ begins (p.slot + 1)
  closes : p.closesSlot = true ↔ p.stop = begins (p.slot + 1)

/-- The pieces lead from `slot` on from one slot to the next. -/
def Slotted (begins : Nat → Int) : Nat → List Piece → Prop
  | _, [] => True
  | slot, p :: rest => p.slot = slot ∧ p.InSlot begins ∧ Slotted begins p.nextSlot rest

/-- The slot to which pieces lead. -/
def slotAfter : Nat → List Piece → Nat
  | slot, [] => slot
  | _, p :: rest => slotAfter p.nextSlot rest

section Slotted

variable {begins : Nat → Int} {slotLength : Int} {p : Piece}

/-- Where a piece ends, the walk goes on in the slot it names. -/
theorem Piece.InSlot.position (h : p.InSlot begins) (hlength : 1 ≤ slotLength)
    (hgrid : ∀ i, begins (i + 1) = begins i + slotLength) :
    begins p.nextSlot ≤ p.stop ∧ p.stop < begins (p.nextSlot + 1) := by
  have hforward := h.forward
  have hopens := h.opens
  have hwithin := h.within
  rw [Piece.nextSlot]
  split
  · have hstop := h.closes.1 ‹_›
    have hnext := hgrid (p.slot + 1)
    omega
  · have hstop : p.stop ≠ begins (p.slot + 1) := fun heq => absurd (h.closes.2 heq) ‹_›
    omega

/-- The slot in which the walk goes on is the one to which its pieces lead. -/
theorem nextSlot_eq_slotAfter : ∀ (slot : Nat) (way : List Piece),
    (way.getLast?.map Piece.nextSlot).getD slot = slotAfter slot way
  | _, [] => rfl
  | _, [_] => rfl
  | _, p :: q :: rest => by
      have ih := nextSlot_eq_slotAfter p.nextSlot (q :: rest)
      rw [List.getLast?_cons_cons, slotAfter, ← ih, List.getLast?_eq_some_getLast (by simp)]
      rfl

/-- Every way that starts in its slot goes on from slot to slot. -/
theorem slotted_pieces (power energy : Corridor) {last : Int} (slots : Nat)
    (hlength : 1 ≤ slotLength) (hlast : last ≤ Quantity.greatest)
    (hgrid : ∀ i, begins (i + 1) = begins i + slotLength) (here : Int) (slot : Nat)
    (slotStop : Int) (hhere : 0 ≤ here) (hopens : begins slot ≤ here) (hstop : here < slotStop)
    (hnext : begins (slot + 1) = slotStop) :
    Slotted begins slot (pieces power energy slotLength last slots here slot slotStop) := by
  fun_induction pieces power energy slotLength last slots here slot slotStop with
  | case1 here slot slotStop hgo next hclose ih =>
      have hlt : here < next := here_lt_nextOffset hgo.1 hstop
      have hle : next ≤ min slotStop last := nextOffset_le_min power energy last slotStop here
      have hkeep : Quantity.low32 next = next := low32_nextOffset hlast hhere hgo.1 hstop
      have hgrid' := hgrid (slot + 1)
      rw [hkeep] at ih ⊢
      -- The slot is over, and the next one begins where the piece ends.
      refine ⟨rfl, ⟨hlt, hopens, by simp only; omega,
        ⟨fun _ => by simp only; omega, fun _ => rfl⟩⟩, ?_⟩
      exact ih (by omega) (by omega) (by omega) (by omega)
  | case2 here slot slotStop hgo next hclose ih =>
      have hlt : here < next := here_lt_nextOffset hgo.1 hstop
      have hle : next ≤ min slotStop last := nextOffset_le_min power energy last slotStop here
      have hopen : next ≠ begins (slot + 1) := by rw [hnext]; exact hclose
      refine ⟨rfl, ⟨hlt, hopens, by simp only; omega,
        ⟨fun htrue => absurd htrue Bool.false_ne_true, fun heq => absurd heq hopen⟩⟩, ?_⟩
      exact ih (by omega) (by omega) (by omega) hnext
  | case3 => trivial

/-- What every piece of a way keeps holds where the way leads. -/
theorem foldl_along {α : Type} {Inv : Int → Nat → α → Prop} {step : α → Piece → α}
    {power energy : Corridor} {entry last : Int}
    (hstep : ∀ p a, entry ≤ p.start → p.stop ≤ last → p.InSlot begins → Inv p.start p.slot a →
      Inv p.stop p.nextSlot (step a p)) :
    ∀ {here : Int} {slot : Nat} {way : List Piece} {a : α}, entry ≤ here →
      Consecutive power energy last here way → Slotted begins slot way → Inv here slot a →
      Inv (arrival here way) (slotAfter slot way) (way.foldl step a)
  | _, _, [], _, _, _, _, ha => ha
  | _, _, p :: rest, a, hentry, hway, hslots, ha => by
      obtain ⟨rfl, hlt, hle, -, hrest⟩ := hway
      obtain ⟨rfl, hp, hnext⟩ := hslots
      have hdone := hstep p a hentry hle hp ha
      show Inv (arrival p.stop rest) (slotAfter p.nextSlot rest) (rest.foldl step (step a p))
      exact foldl_along hstep (by omega) hrest hnext hdone

end Slotted

namespace PlanningWindow

variable {w : PlanningWindow} {task : Task}

theorem slotted_piecesOf (hlength : 1 ≤ w.slotLength) (horigin : w.origin ≤ w.start)
    (hentry : w.entry task ≤ Quantity.greatest) (hrun : task.runningTime ≤ Quantity.greatest)
    (power energy : Corridor) (slots : Nat) :
    Slotted (w.slotOffset task) (w.walk task).slot (w.piecesOf power energy slots task) := by
  have hlast := walk_last_le w task
  rw [piecesOf, walk_start hentry]
  exact slotted_pieces power energy slots hlength (by omega) (w.slotOffset_succ task) _ _ _
    (entry_nonneg w task) (slotOffset_walk_le hlength horigin) (entry_lt_slotStop hlength)
    (w.slotOffset_walk_succ task)

end PlanningWindow
end SiteDispatch
