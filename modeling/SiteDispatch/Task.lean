/-
  SiteDispatch.Task

  The concrete power profile chosen for a flexibility.
-/

import SiteDispatch.Profile

namespace SiteDispatch

/-- A committed or planned run. `power` is relative to `startingTime`; its last
    key marks the end of the profile and the value there carries no meaning. -/
structure Task where
  id : Int
  flexibilityId : Int
  adaptable : Bool
  startingTime : Int
  runningTime : Int
  power : PowerProfile
deriving DecidableEq, Inhabited

namespace Task

/-- Id of a task that was planned but is not yet known to its device. -/
def unregistered : Int := -1

/-- A task that rests for its whole running time. -/
def idle (id flexibilityId : Int) (adaptable : Bool) (startingTime runningTime : Int) : Task where
  id := id
  flexibilityId := flexibilityId
  adaptable := adaptable
  startingTime := startingTime
  runningTime := runningTime
  power := PowerProfile.idle runningTime

/-- First instant after the task. -/
def stop (t : Task) : Int := t.startingTime + t.runningTime

/-- Whether the task began before `now`. -/
def hasStarted (t : Task) (now : Int) : Bool := t.startingTime < now

/-- Whether the task covers the instant `now`. -/
def isRunning (t : Task) (now : Int) : Bool := t.startingTime ≤ now && now < t.stop

theorem isRunning_iff {t : Task} {now : Int} :
    t.isRunning now = true ↔ t.startingTime ≤ now ∧ now < t.stop := by
  simp [isRunning]

/-- Power at an offset from the start, 0 W before the first entry. -/
def powerAt (t : Task) (offset : Int) : Int := PowerProfile.powerAt t.power offset

/-- The same task with its profile in shortest form. -/
def compress (t : Task) : Task :=
  { t with power := PowerProfile.compress t.power t.runningTime }

end Task
end SiteDispatch
