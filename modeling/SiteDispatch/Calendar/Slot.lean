/-
  SiteDispatch.Calendar.Slot

  Slots of a fixed length, aligned to the local hour.
-/

import SiteDispatch.Calendar.Day
import SiteDispatch.Halt

namespace SiteDispatch
namespace Calendar

/-- Start of the slot that contains `t`. -/
def slotStart (z : Zone) (t length : Int) : Int :=
  if hasDate t then t - (z.localTime t % 3600).tmod length else t - t % length

/-- `t` if it is a slot start, otherwise the start of the next slot. -/
def ceilToSlot (z : Zone) (t length : Int) : Int :=
  let start := slotStart z t length
  if start = t then t else start + length

/-- Slots of no length do not divide time. -/
def checkSlotLength (length : Int) : Except Halt Unit :=
  if length = 0 then .error .zeroSlotLength else .ok ()

end Calendar
end SiteDispatch
