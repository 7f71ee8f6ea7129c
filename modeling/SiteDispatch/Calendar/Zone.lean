/-
  SiteDispatch.Calendar.Zone

  A time zone: the offset from UTC in force at each instant. The clocks of a zone
  may skip local times, which then belong to no instant, and repeat them; of two
  instants with the same local time the earlier one counts.
-/

import SiteDispatch.OrderedMap.Basic

namespace SiteDispatch

/-- A time zone as its table of offsets from UTC. -/
structure Zone where
  name : String
  /-- Offset in seconds before the first change. -/
  initial : Int
  /-- Instant of a change ↦ offset in force from then on. -/
  changes : OrderedMap Int Int

namespace Zone

/-- Offset from UTC at an instant. -/
def offsetAt (z : Zone) (t : Int) : Int := (z.changes.floorValue? t).getD z.initial

/-- What the clocks show at an instant, as seconds since local 1970-01-01. -/
def localTime (z : Zone) (t : Int) : Int := t + z.offsetAt t

/-- Offsets that are ever in force. -/
def offsets (z : Zone) : List Int := (z.initial :: z.changes.values).eraseDups

/-- The earliest instant at which the clocks show `shown`. -/
def instantOf? (z : Zone) (shown : Int) : Option Int :=
  ((z.offsets.map (fun o => shown - o)).filter (fun t => z.localTime t = shown)).min?

end Zone
end SiteDispatch
