/-
  SiteDispatch.Proofs.Planning.Choice

  The power chosen for one piece of a task.

  A choice is either 0 W or a power that the power corridor admits and that keeps
  the buffered energy bound at the end of the piece. The bound is divided by the
  length of the piece with the rounding that is safe on its side, and what lies in
  the buffered bound lies in the bound itself as long as that holds 0.
-/

import Mathlib.Tactic.Common
import SiteDispatch.Planning.Allocation

namespace SiteDispatch

/-! ## Bounds with open ends -/

namespace Interval

/-- Whether a total keeps a bound whose ends may be open. -/
def Keeps (bound : Interval) (total : Int) : Prop :=
  (bound.low = Quantity.least ∨ bound.low ≤ total) ∧
    (bound.high = Quantity.greatest ∨ total ≤ bound.high)

theorem contains_of_keeps {i : Interval} {total : Int} (hleast : Quantity.least ≤ total)
    (hgreatest : total ≤ Quantity.greatest) (hkeeps : i.Keeps total) : i.contains total := by
  obtain ⟨hlow, hhigh⟩ := hkeeps
  rw [contains_iff]
  omega

theorem buffered_eq_or_eq (i : Interval) (margin : Int) :
    i.buffered margin = i ∨ i.buffered margin =
      ⟨if i.low = Quantity.least then i.low else Quantity.saturate (i.low + margin),
        if i.high = Quantity.greatest then i.high else Quantity.saturate (i.high - margin)⟩ :=
  ite_eq_or_eq _ _ _

/-- A margin only takes away from a bound that holds 0. -/
theorem keeps_of_keeps_buffered {i : Interval} {margin total : Int} (hmargin : 0 ≤ margin)
    (hzero : i.contains 0) (hleast : Quantity.least ≤ total) (hgreatest : total ≤ Quantity.greatest)
    (hkeeps : (i.buffered margin).Keeps total) : i.Keeps total := by
  obtain ⟨hlow0, hhigh0⟩ := contains_iff.1 hzero
  rcases i.buffered_eq_or_eq margin with heq | heq <;> rw [heq] at hkeeps
  · exact hkeeps
  · -- An end that is not open has moved inwards, at most to the end of the narrow range.
    obtain ⟨hlow, hhigh⟩ := hkeeps
    simp only [Quantity.saturate] at hlow hhigh
    constructor
    · by_cases hopen : i.low = Quantity.least
      · exact .inl hopen
      · rw [if_neg hopen] at hlow
        simp only [Quantity.least, Quantity.greatest] at *
        omega
    · by_cases hopen : i.high = Quantity.greatest
      · exact .inl hopen
      · rw [if_neg hopen] at hhigh
        simp only [Quantity.least, Quantity.greatest] at *
        omega

end Interval

/-! ## The admissible powers -/

theorem energy_le_of_le_fdiv {high energy length v : Int} (hlength : 0 < length)
    (h : v ≤ Int.fdiv (high - energy) length) : energy + v * length ≤ high := by
  rw [Int.fdiv_eq_ediv_of_nonneg _ (by omega), Int.le_ediv_iff_mul_le hlength] at h
  omega

theorem le_energy_of_neg_fdiv_le {low energy length v : Int} (hlength : 0 < length)
    (h : -(Int.fdiv (-(low - energy)) length) ≤ v) : low ≤ energy + v * length := by
  have hneg : -v ≤ Int.fdiv (-(low - energy)) length := by omega
  rw [Int.fdiv_eq_ediv_of_nonneg _ (by omega), Int.le_ediv_iff_mul_le hlength,
    Int.neg_mul] at hneg
  omega

theorem admissible_eq_some_iff {corridor bound range : Interval} {energy length : Int} :
    admissible corridor bound energy length = some range ↔
      range.low ≤ range.high ∧
        ⟨if bound.low = Quantity.least then corridor.low
          else max corridor.low (-(Int.fdiv (-(bound.low - energy)) length)),
        if bound.high = Quantity.greatest then corridor.high
          else min corridor.high (Int.fdiv (bound.high - energy) length)⟩ = range := by
  simp only [admissible, Option.ite_none_left_eq_some, Option.some.injEq, Int.not_lt]
  constructor
  · rintro ⟨hle, rfl⟩
    exact ⟨hle, rfl⟩
  · rintro ⟨hle, rfl⟩
    exact ⟨hle, rfl⟩

/-- An admissible power lies in the corridor and keeps the bound at the end of the
    piece. -/
theorem keeps_of_admissible {corridor bound range : Interval} {energy length v : Int}
    (hlength : 0 < length) (h : admissible corridor bound energy length = some range)
    (hv : range.contains v) :
    corridor.contains v ∧ bound.Keeps (energy + v * length) := by
  obtain ⟨-, rfl⟩ := admissible_eq_some_iff.1 h
  obtain ⟨hlow, hhigh⟩ := Interval.contains_iff.1 hv
  dsimp only at hlow hhigh
  -- Each end of the range stands for the corridor and, unless it is open, for the bound.
  have hleft : corridor.low ≤ v ∧
      (bound.low = Quantity.least ∨ bound.low ≤ energy + v * length) := by
    by_cases hopen : bound.low = Quantity.least
    · exact ⟨by simpa [hopen] using hlow, .inl hopen⟩
    · rw [if_neg hopen] at hlow
      exact ⟨by omega, .inr (le_energy_of_neg_fdiv_le hlength (by omega))⟩
  have hright : v ≤ corridor.high ∧
      (bound.high = Quantity.greatest ∨ energy + v * length ≤ bound.high) := by
    by_cases hopen : bound.high = Quantity.greatest
    · exact ⟨by simpa [hopen] using hhigh, .inl hopen⟩
    · rw [if_neg hopen] at hhigh
      exact ⟨by omega, .inr (energy_le_of_le_fdiv hlength (by omega))⟩
  exact ⟨Interval.contains_iff.2 ⟨hleft.1, hright.1⟩, hleft.2, hright.2⟩

/-- The power chosen for a piece is 0 W, or the corridor holds it and the energy
    delivered by the end of the piece keeps the buffered bound. -/
theorem choosePower_spec (f : Flexibility) (w : PlanningWindow) (goals : List (Option Int))
    (d : Draft) {p : Piece} (hlength : p.start < p.stop) :
    choosePower f w goals d p = 0 ∨
      ((f.powerCorridor.floorValue? p.start).getD Interval.zero).contains
          (choosePower f w goals d p) ∧
        (((f.energyConstraint? (Quantity.low32 p.stop)).getD Interval.unbounded).buffered
          w.buffer).Keeps (d.energy + choosePower f w goals d p * p.length) := by
  rw [choosePower]
  split
  · exact .inl rfl
  · rename_i range hrange
    refine .inr (keeps_of_admissible (by simp only [Piece.length]; omega) hrange ?_)
    -- There is an admissible power, so the range is not empty.
    have hne : range.low ≤ range.high := (admissible_eq_some_iff.1 hrange).1
    rw [Interval.contains_iff]
    dsimp only
    omega

end SiteDispatch
