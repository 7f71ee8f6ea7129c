/-
  SiteDispatch.Device.Commit

  Changes to the plan of a device on request: a profile for a task that has not
  started, a correction of an adaptable task, the return to rest. A request that
  is not accepted changes nothing.
-/

import SiteDispatch.Device.State
import SiteDispatch.Flexibility.Validity
import SiteDispatch.Schedule.Device

namespace SiteDispatch
namespace DeviceState

/-- Plans `power` from `startingTime` on for a flexibility whose task has not
    started yet. -/
def schedule (s : DeviceState) (id startingTime : Int) (power : PowerProfile) (now : Int) :
    SchedulingResult × DeviceState :=
  match s.flexibilities.get? id with
  | none => (.unknownFlexibility, s)
  | some f =>
    match s.tasks.get? f.taskId with
    | none => (.unknownTask, s)
    | some task =>
      if task.hasStarted now then (.illegal, s)
      else if !f.accepts startingTime power then (.invalidData, s)
      else
        let planned := Task.compress
          { task with
            startingTime := startingTime
            runningTime := power.lastKey?.getD task.runningTime
            power := power }
        let cleared := PowerTimeline.clear s.scheduledPower task.startingTime task.stop
        (.ok,
          { s with
            tasks := s.tasks.insert f.taskId planned
            scheduledPower := PowerTimeline.write cleared startingTime planned.power
              fun offset => some offset = planned.power.lastKey? })

/-- The profile of a task after a correction: the update replaces the entries
    between its first and last key, and the value in force at the last key
    returns there. -/
def corrected (task : Task) (update : PowerProfile) (first last : Int) :
    PowerProfile × PowerProfile :=
  let update := update.insert last (task.powerAt last)
  (update, (task.power.filter fun k _ => k < first || last < k).override update)

/-- Corrects the task of an adaptable flexibility between the first and the last
    key of `update`. The corrected profile is validated as a whole. -/
def adapt (s : DeviceState) (id : Int) (update : PowerProfile) : SchedulingResult × DeviceState :=
  match s.flexibilities.get? id with
  | none => (.unknownFlexibility, s)
  | some f =>
    if !f.adaptable then (.illegal, s)
    else match s.tasks.get? f.taskId with
      | none => (.unknownTask, s)
      | some task =>
        match update.firstKey?, update.lastKey? with
        | some first, some last =>
          let (update, merged) := corrected task update first last
          if !f.accepts task.startingTime merged then (.invalidData, s)
          else
            let start := task.startingTime
            let cleared := PowerTimeline.clear s.scheduledPower (start + first) (start + last)
            (.ok,
              { s with
                tasks := s.tasks.insert f.taskId (Task.compress { task with power := merged })
                scheduledPower := PowerTimeline.write cleared start update
                  fun offset => task.stop ≤ start + offset })
        | _, _ => (.invalidData, s)

/-- Returns a task that has not started to rest. -/
def unschedule (s : DeviceState) (id now : Int) : SchedulingResult × DeviceState :=
  match s.flexibilities.get? id with
  | none => (.unknownFlexibility, s)
  | some f =>
    match s.tasks.get? f.taskId with
    | none => (.unknownTask, s)
    | some task =>
      if task.hasStarted now then (.illegal, s)
      else
        let cleared := PowerTimeline.clear s.scheduledPower task.startingTime task.stop
        (.ok,
          { s with
            tasks := s.tasks.insert f.taskId
              { task with power := PowerProfile.idle task.runningTime }
            scheduledPower := cleared.insert task.startingTime 0 })

end DeviceState
end SiteDispatch
