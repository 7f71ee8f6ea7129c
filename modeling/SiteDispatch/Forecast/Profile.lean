/-
  SiteDispatch.Forecast.Profile

  Reference shapes of household load and of solar production, hour by hour in
  local time.
-/

import SiteDispatch.Calendar.Slot
import SiteDispatch.Forecast.Basic

namespace SiteDispatch
namespace Forecaster

/-- Values for the local hours that overlap `[start, stop)`. -/
def hourly (zone : Zone) (start stop : Int) (value : Float → Float) : PowerForecast :=
  let first := Calendar.slotStart zone start 3600
  let hours := ((stop - first + 3600 - 1) / 3600).toNat
  { startingTime := first
    slotLength := 3600
    values := (List.range hours).map fun (h : Nat) =>
      value (Float.ofInt (Calendar.hourOfDay zone (first + h * 3600))) }

/-- Bell around `mean`, 1 at its top. -/
def bump (x mean width : Float) : Float :=
  let z := (x - mean) / (if 0.01 < width then width else 0.01)
  Float.exp (-0.5 * z * z)

/-- Household load at an hour: a base load, a morning and an evening peak, never
    below 200 W. -/
def load (base hour : Float) : Float :=
  let morning := bump hour 7.5 1.5 * 1000.0
  let evening := bump hour 18.5 2.0 * 1600.0
  let watts := base + morning + evening
  if 200.0 < watts then watts else 200.0

/-- Forecasts household load. -/
def household (zone : Zone) (base : Float) : Forecaster := fun kind start stop =>
  match kind with
  | .consumption => .ok (hourly zone start stop (load base))
  | kind => .error s!"consumption profile cannot forecast {kind.text}"

/-- A solar installation under a clear sky, reduced by a cloud factor. -/
structure SolarProfile where
  peak : Float
  sunrise : Float
  sunset : Float
  cloudFactor : Float

/-- Half the circumference of a circle of radius 1. -/
def pi : Float := 3.14159265358979323846

/-- Solar production at an hour: a bell between sunrise and sunset. -/
def SolarProfile.power (p : SolarProfile) (hour : Float) : Float :=
  if hour < p.sunrise || p.sunset < hour then 0.0
  else
    let length := p.sunset - p.sunrise
    let part := (hour - p.sunrise) / (if 0.01 < length then length else 0.01)
    let sine := Float.sin (pi * part)
    let height := if 0.0 < sine then sine else 0.0
    Float.neg height * p.peak * p.cloudFactor

/-- Forecasts solar production. -/
def solar (zone : Zone) (profile : SolarProfile) : Forecaster := fun kind start stop =>
  match kind with
  | .production => .ok (hourly zone start stop profile.power)
  | kind => .error s!"solar profile cannot forecast {kind.text}"

/-- A solar profile with the usual hours and clouds. -/
def SolarProfile.ofPeak (peak : Float) : SolarProfile := ⟨peak, 8.0, 16.0, 0.75⟩

end Forecaster
end SiteDispatch
