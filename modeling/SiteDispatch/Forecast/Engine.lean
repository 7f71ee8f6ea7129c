/-
  SiteDispatch.Forecast.Engine

  Sums the forecasts of all meters on the grid of the optimiser, as energy.
-/

import SiteDispatch.Forecast.Resample
import SiteDispatch.Quantity

namespace SiteDispatch

/-- A meter could not be forecast. -/
structure ForecastError where
  kind : ForecastKind
  start : Int
  stop : Int
  reason : String
deriving DecidableEq

/-- The failed step and its cause. -/
def ForecastError.message (e : ForecastError) : String :=
  s!"{e.kind.text} forecast for {e.start}..{e.stop} failed: {e.reason}"

/-- The forecasters of all meters of a site. -/
structure ForecastEngine where
  consumption : List Forecaster
  production : List Forecaster

namespace ForecastEngine

/-- Power in W per slot, summed over the forecasters from left to right. -/
def power (kind : ForecastKind) (start slotLength : Int) (slots : Nat) :
    List Float → List Forecaster → Except ForecastError (List Float)
  | sum, [] => .ok sum
  | sum, forecaster :: rest =>
    let stop := start + slotLength * slots
    match forecaster kind start stop with
    | .error reason => .error ⟨kind, start, stop, reason⟩
    | .ok forecast =>
      power kind start slotLength slots
        (List.zipWith (· + ·) sum (forecast.resample start slotLength slots)) rest

/-- Energy in Wh per slot, zeros without forecasters. -/
def energy (kind : ForecastKind) (forecasters : List Forecaster) (start slotLength : Int)
    (slots : Nat) : Except ForecastError (List Int) :=
  (power kind start slotLength slots (List.replicate slots 0.0) forecasters).map fun watts =>
    watts.map fun w => Quantity.truncate32 (w * Float.ofInt slotLength / 3600.0).round

/-- Expected demand in Wh per slot. -/
def demand (e : ForecastEngine) (start slotLength : Int) (slots : Nat) :
    Except ForecastError (List Int) :=
  energy .consumption e.consumption start slotLength slots

/-- Expected production in Wh per slot, negative. -/
def supply (e : ForecastEngine) (start slotLength : Int) (slots : Nat) :
    Except ForecastError (List Int) :=
  energy .production e.production start slotLength slots

end ForecastEngine
end SiteDispatch
