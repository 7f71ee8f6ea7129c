/-
  SiteDispatch.Forecast.Resample

  Brings a forecast onto another grid.
-/

import SiteDispatch.Forecast.Basic

namespace SiteDispatch
namespace PowerForecast

/-- Seconds that `[start, stop)` and a source slot starting at `source` share. -/
def overlap (start stop source length : Int) : Int :=
  max (min stop (source + length) - max start source) 0

/-- Energy in Ws that the forecast puts into `[start, stop)`. -/
def energyWithin (f : PowerForecast) (start stop : Int) : Float :=
  (f.values.zipIdx.map fun (value, j) =>
    Float.ofInt (overlap start stop (f.startingTime + j * f.slotLength) f.slotLength) * value).foldl
      (· + ·) 0.0

/-- Time-weighted average over `slots` slots from `start` on. Time that the
    forecast does not cover counts as 0 W. -/
def resample (f : PowerForecast) (start slotLength : Int) (slots : Nat) : List Float :=
  if f.slotLength = slotLength ∧ f.startingTime = start then
    (List.range slots).map fun i => f.values.getD i 0.0
  else
    (List.range slots).map fun (i : Nat) =>
      let first := start + i * slotLength
      f.energyWithin first (first + slotLength) / Float.ofInt slotLength

end PowerForecast
end SiteDispatch
