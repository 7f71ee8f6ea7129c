/-
  SiteDispatch.Device.State

  What a device knows about its schedule: the flexibilities it offers, the task
  planned in each, the timeline of committed setpoints, and possibly a state of
  charge to be reached by some time.
-/

import SiteDispatch.Device.Config
import SiteDispatch.Flexibility.Basic

namespace SiteDispatch

/-- The schedule of a device. -/
structure DeviceState where
  idCounter : Int
  /-- Requested state of charge in percent, 0 when there is no request. -/
  targetSoc : Int
  targetSocTime : Int
  flexibilities : OrderedMap Int Flexibility
  tasks : OrderedMap Int Task
  /-- Committed setpoints, the union of all tasks. -/
  scheduledPower : PowerTimeline
deriving DecidableEq, Inhabited

namespace DeviceState

/-- A device without any schedule. -/
def fresh : DeviceState := ⟨0, 0, 0, .empty, .empty, .empty⟩

instance : EmptyCollection DeviceState := ⟨fresh⟩

/-- Whether a requested state of charge is still to be reached. -/
def socTargetActive (s : DeviceState) (now : Int) : Bool :=
  0 < s.targetSoc && now < s.targetSocTime

/-- Whether a task covers `time`, possibly including its first instant after. -/
def covers (time : Int) (stopIncluded : Bool) (t : Task) : Bool :=
  t.startingTime ≤ time && (time < t.stop || (stopIncluded && time = t.stop))

/-- Id of the first task that covers `time`. -/
def taskIdAt? (s : DeviceState) (time : Int) (stopIncluded : Bool) : Option Int :=
  (s.tasks.values.find? (covers time stopIncluded)).map (·.id)

/-- Committed setpoint at `time`, W. -/
def powerAt (s : DeviceState) (time : Int) : Int := PowerProfile.powerAt s.scheduledPower time

/-- Stored energy in Wh expected at `time` when the timeline is followed from
    `now` on with `stored` Wh. -/
def expectedEnergy (s : DeviceState) (now time stored : Int) : Int :=
  stored + Quantity.wattHours (PowerProfile.energyBetween s.scheduledPower now time)

end DeviceState

/-- Removes the entries in `[start, stop)`. -/
def PowerTimeline.clear (timeline : PowerTimeline) (start stop : Int) : PowerTimeline :=
  timeline.filter fun k _ => !(start ≤ k && k < stop)

/-- Stores a setpoint. The end marker of a profile gives way to a setpoint that
    is there already. -/
def PowerTimeline.put (timeline : PowerTimeline) (isEndMarker : Bool) (time watts : Int) :
    PowerTimeline :=
  if isEndMarker then timeline.insertNew time watts else timeline.insert time watts

/-- Writes a profile that starts at `start`; entries that satisfy `isEndMarker`
    give way. -/
def PowerTimeline.write (timeline : PowerTimeline) (start : Int) (profile : PowerProfile)
    (isEndMarker : Int → Bool) : PowerTimeline :=
  profile.entries.foldl (fun line e => line.put (isEndMarker e.1) (start + e.1) e.2) timeline

end SiteDispatch
