/-
  SiteDispatch.Schedule.Device

  What a device answers about its schedule: the identifiers in a window, the
  objects behind them, and the outcome of a change.
-/

import SiteDispatch.Device.Id
import SiteDispatch.Flexibility.Basic

namespace SiteDispatch

/-- Outcome of a change to a device's schedule. -/
inductive SchedulingResult
  | ok
  /-- Not permitted in the task's current phase. -/
  | illegal
  /-- The profile does not fit the flexibility. -/
  | invalidData
  | conflict
  | unknownFlexibility
  | unknownTask
  | fail
deriving DecidableEq, Repr

namespace SchedulingResult

/-- All outcomes. -/
def all : List SchedulingResult :=
  [ok, illegal, invalidData, conflict, unknownFlexibility, unknownTask, fail]

/-- The name of an outcome. -/
def name : SchedulingResult → String
  | ok => "Ok"
  | illegal => "Illegal"
  | invalidData => "InvalidData"
  | conflict => "Conflict"
  | unknownFlexibility => "UnknownFlexibility"
  | unknownTask => "UnknownTask"
  | fail => "Fail"

/-- The outcome of a name. -/
def ofName? (s : String) : Option SchedulingResult := all.find? (fun r => r.name = s)

/-- Whether the change was made. -/
def isOk (r : SchedulingResult) : Bool := r = ok

theorem ofName?_name (r : SchedulingResult) : ofName? r.name = some r := by
  cases r <;> decide

end SchedulingResult

/-- Identifiers a device reports for a requested window. -/
structure ScheduleSummary where
  device : DeviceId
  start : Int
  stop : Int
  taskIds : List Int
  flexibilityIds : List Int
  constraints : List String
deriving DecidableEq, Inhabited

/-- A device's tasks and flexibilities in a window. -/
structure ScheduleData where
  device : DeviceId
  start : Int
  stop : Int
  tasks : List Task
  flexibilities : List Flexibility
  constraints : List String
deriving DecidableEq, Inhabited

/-- The first flexibility with the given id. -/
def ScheduleData.flexibility? (d : ScheduleData) (id : Int) : Option Flexibility :=
  d.flexibilities.find? (fun f => f.id = id)

/-- Schedules by device; iteration order is allocation order. -/
abbrev Schedules := OrderedMap DeviceId ScheduleData

/-- Planned tasks by device. -/
abbrev TaskPlan := OrderedMap DeviceId (List Task)

end SiteDispatch
