/-
  SiteDispatch.Site.Metering

  Meters of a simulated site. They add up energy until they are read and then tell
  the average powers since the last reading.
-/

import SiteDispatch.Monitoring

namespace SiteDispatch

/-- Energy in Ws since the last reading. -/
structure Meters where
  consumption : Float
  production : Float
  battery : Float
  schedule : Float
  seconds : Float

namespace Meters

/-- Meters that have just been read. -/
def reset : Meters := ⟨0.0, 0.0, 0.0, 0.0, 0.0⟩

/-- Counts powers in W that lasted for `seconds`. -/
def count (m : Meters) (power : MonitoringData) (seconds : Float) : Meters where
  consumption := m.consumption + power.consumption * seconds
  production := m.production + power.production * seconds
  battery := m.battery + power.battery * seconds
  schedule := m.schedule + power.schedule * seconds
  seconds := m.seconds + seconds

/-- Average powers; none if no time has passed. -/
def average? (m : Meters) : Option MonitoringData :=
  if m.seconds ≤ 0.0 then none
  else
    some
      { consumption := m.consumption / m.seconds
        production := m.production / m.seconds
        battery := m.battery / m.seconds
        schedule := m.schedule / m.seconds }

end Meters
end SiteDispatch
