/-
  SiteDispatch.Calendar.Day

  Local days and times of day. Dates exist for a limited range of instants; an
  instant without a date, or a local time that the clocks skip, falls back on
  days of 24 hours.
-/

import SiteDispatch.Calendar.Zone

namespace SiteDispatch
namespace Calendar

/-- Seconds of a day without a clock change. -/
def daySeconds : Int := 86400

/-- Seconds after midnight of a time of day written as hours, minutes and seconds
    with colons between them. -/
def timeOfDay (text : String) : Option Int :=
  match (text.splitOn ":").map String.toInt? with
  | [some hours, some minutes, some seconds] => some (hours * 3600 + minutes * 60 + seconds)
  | _ => none

/-- First instant with a date. -/
def firstInstant : Int := -8334601228800

/-- Last instant with a date. -/
def lastInstant : Int := 8210266876799

/-- Whether the calendar has a date for the instant. -/
def hasDate (t : Int) : Bool := firstInstant ≤ t && t ≤ lastInstant

/-- Local days are counted from 1970-01-01. -/
def dayNumber (z : Zone) (t : Int) : Int := z.localTime t / daySeconds

/-- The instant at which the clocks show `time` seconds after midnight of a day. -/
def timeOfDay? (z : Zone) (day time : Int) : Option Int :=
  if day ≤ lastInstant / daySeconds then z.instantOf? (day * daySeconds + time) else none

/-- Local midnight at the start of the day that contains `t`. -/
def startOfDay (z : Zone) (t : Int) : Int :=
  let midnight := if hasDate t then timeOfDay? z (dayNumber z t) 0 else none
  midnight.getD (t - t % daySeconds)

/-- The local midnight that follows `t`. -/
def startOfNextDay (z : Zone) (t : Int) : Int :=
  let midnight := if hasDate t then timeOfDay? z (dayNumber z t + 1) 0 else none
  midnight.getD (startOfDay z t + daySeconds)

/-- Next occurrence of a local time of day strictly after `t`. -/
def nextTimeOfDay (z : Zone) (t time : Int) : Int :=
  if hasDate t then
    match (timeOfDay? z (dayNumber z t) time).filter (fun candidate => t < candidate) with
    | some candidate => candidate
    | none => (timeOfDay? z (dayNumber z t + 1) time).getD (t + daySeconds)
  else t + daySeconds

/-- Number of the local day, 1 for the first of January of the year 1; 0 for an
    instant without a date. -/
def dayOrdinal (z : Zone) (t : Int) : Int := if hasDate t then dayNumber z t + 719163 else 0

/-- Full local hours since midnight; 0 for an instant without a date. -/
def hourOfDay (z : Zone) (t : Int) : Int :=
  if hasDate t then z.localTime t % daySeconds / 3600 else 0

end Calendar
end SiteDispatch
