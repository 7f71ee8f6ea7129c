/-
  SiteDispatch.Battery

  An ideal battery that integrates the power it is told to run at, within its
  ratings and between empty and full.
-/

import SiteDispatch.Halt
import SiteDispatch.Quantity

namespace SiteDispatch

/-- What a battery can hold and how fast it can be charged and discharged. -/
structure BatteryRatings where
  /-- Wh -/
  capacity : Float
  /-- W -/
  maxCharge : Float
  /-- W -/
  maxDischarge : Float

/-- A battery that runs at the setpoint it was given last. -/
structure Battery where
  /-- State of charge in percent. -/
  charge : Float
  /-- W, positive while charging. -/
  power : Float
  ratings : BatteryRatings

namespace Battery

/-- A battery at rest. -/
def atRest (charge : Float) (ratings : BatteryRatings) : Battery := ⟨charge, 0.0, ratings⟩

/-- Runs at `watts`, as far as the ratings allow, for `seconds`. -/
def run (b : Battery) (watts seconds : Float) : Except Halt Battery := do
  let watts ← Halt.clampFloat (-b.ratings.maxDischarge) b.ratings.maxCharge watts
  let gained := watts * seconds / 3600.0
  let charge ← Halt.clampFloat 0.0 100.0 (b.charge + gained / b.ratings.capacity * 100.0)
  return { b with charge := charge, power := watts }

/-- Sets the state of charge, between empty and full. -/
def setCharge (b : Battery) (charge : Float) : Battery :=
  { b with charge := if charge < 0.0 then 0.0 else if 100.0 < charge then 100.0 else charge }

/-- Energy in Wh that a state of charge means for a nominal capacity, to the
    nearest Wh. -/
def storedEnergy (charge : Float) (nominalCapacity : Int) : Int :=
  Quantity.truncate64 (charge * Float.ofInt nominalCapacity / 100.0).round

end Battery
end SiteDispatch
