/-
  SiteDispatch.Interval

  Closed integer ranges: bounds on powers in W, on energies in Ws, on durations
  and on instants. Where a range bounds a 32-bit quantity, an end at the edge of
  that range stands for "no bound" and stays where it is when the range moves.
-/

import SiteDispatch.Quantity

namespace SiteDispatch

/-- The integers from `low` to `high`, both included; empty when `high < low`. -/
structure Interval where
  low : Int
  high : Int
deriving DecidableEq, Repr, Inhabited

namespace Interval

/-- The range that bounds nothing. -/
def unbounded : Interval := ⟨Quantity.least, Quantity.greatest⟩

/-- The range that holds 0 only. -/
def zero : Interval := ⟨0, 0⟩

/-- Whether the value lies in the range, ends included. -/
def contains (i : Interval) (x : Int) : Bool := i.low ≤ x && x ≤ i.high

/-- An end moved by `delta`: open ends stay open, others saturate. -/
def shiftEnd (delta bound : Int) : Int :=
  if bound = Quantity.least ∨ bound = Quantity.greatest then bound
  else Quantity.saturate (bound + delta)

/-- Both ends moved by `delta`. -/
def shifted (i : Interval) (delta : Int) : Interval :=
  ⟨shiftEnd delta i.low, shiftEnd delta i.high⟩

/-- The member nearest to `x`; the upper end wins when the range is empty. -/
def nearest (i : Interval) (x : Int) : Int :=
  Quantity.saturate (min (max x i.low) i.high)

/-- The range narrowed by `margin` on both sides, open ends kept; unchanged if
    nothing would be left. -/
def buffered (i : Interval) (margin : Int) : Interval :=
  let low := if i.low = Quantity.least then i.low else Quantity.saturate (i.low + margin)
  let high := if i.high = Quantity.greatest then i.high else Quantity.saturate (i.high - margin)
  if high < low then i else ⟨low, high⟩

/-- Written as `[low, high]`. -/
def text (i : Interval) : String := s!"[{i.low}, {i.high}]"

theorem contains_iff {i : Interval} {x : Int} :
    i.contains x = true ↔ i.low ≤ x ∧ x ≤ i.high := by
  simp [contains]

end Interval
end SiteDispatch
