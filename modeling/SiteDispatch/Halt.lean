/-
  SiteDispatch.Halt

  Requests that have no answer at all: the caller asked to divide time into
  slots of no length, or to keep a value between bounds that exclude each other.
  A computation that meets one stops there.
-/

namespace SiteDispatch

/-- What keeps a computation from having a result. -/
inductive Halt
  /-- Slots must have a length. -/
  | zeroSlotLength
  /-- A value was to be kept between bounds of which the lower exceeds the upper. -/
  | crossedBounds
  /-- A stretch of a profile was requested that ends before it begins. -/
  | reversedWindow
deriving DecidableEq, Repr

namespace Halt

/-- `x` kept between `low` and `high`. -/
def clamp (low high x : Int) : Except Halt Int :=
  if high < low then .error .crossedBounds else .ok (max low (min x high))

/-- A measured value kept between `low` and `high`. -/
def clampFloat (low high x : Float) : Except Halt Float :=
  if low ≤ high then .ok (if x < low then low else if high < x then high else x)
  else .error .crossedBounds

end Halt
end SiteDispatch
