/-
  SiteDispatch.Monitoring

  Averaged power of the site since the previous measurement, in W.
-/

namespace SiteDispatch

/-- One measurement of the site. -/
structure MonitoringData where
  consumption : Float
  production : Float
  battery : Float
  schedule : Float

/-- Positive when the site should consume more. -/
def MonitoringData.difference (d : MonitoringData) : Float :=
  d.schedule - (d.consumption + d.production + d.battery)

end SiteDispatch
