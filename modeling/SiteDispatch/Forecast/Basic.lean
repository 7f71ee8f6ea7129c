/-
  SiteDispatch.Forecast.Basic

  Forecasts report average power per slot on a grid of their own. A forecaster
  answers a question about a window with such a forecast, or says why it cannot.
-/

namespace SiteDispatch

/-- What is forecast. -/
inductive ForecastKind
  | consumption
  | production
deriving DecidableEq, Repr

namespace ForecastKind

/-- Both kinds. -/
def all : List ForecastKind := [consumption, production]

/-- The word used in texts and accepted as input. -/
def text : ForecastKind → String
  | consumption => "consumption"
  | production => "production"

/-- The name used in stored data. -/
def name : ForecastKind → String
  | consumption => "Consumption"
  | production => "Production"

/-- The kind of a word. -/
def ofText? (s : String) : Option ForecastKind := all.find? (fun k => k.text = s)

end ForecastKind

/-- Average power in W per slot from `startingTime` on. Production is negative. -/
structure PowerForecast where
  startingTime : Int
  slotLength : Int
  values : List Float

/-- First instant after the last slot. -/
def PowerForecast.stop (f : PowerForecast) : Int := f.startingTime + f.slotLength * f.values.length

/-- Answers a kind and a window `[start, stop)` with a forecast or a reason. -/
abbrev Forecaster := ForecastKind → Int → Int → Except String PowerForecast

namespace Forecaster

/-- Always the same forecast, whatever is asked. -/
def recorded (forecast : PowerForecast) : Forecaster := fun _ _ _ => .ok forecast

/-- One slot of constant power that covers the window. -/
def constant (watts : Float) : Forecaster := fun _ start stop => .ok ⟨start, stop - start, [watts]⟩

/-- Never an answer. -/
def unavailable (reason : String) : Forecaster := fun _ _ _ => .error reason

end Forecaster
end SiteDispatch
