/-
  SiteDispatch.Snapshot.Codec

  The text form of stored state: JSON with one record per structure, fields in a
  fixed order when written and in any order when read.
-/

import SiteDispatch.Device.State
import SiteDispatch.Json.Decoder
import SiteDispatch.Json.Printer
import SiteDispatch.Scheduler.State

namespace SiteDispatch

/-- A way to write values of a type as JSON and to read them back. -/
structure Codec (α : Type) where
  encode : α → Json
  decode? : Json → Option α

namespace Codec

/-- The pretty text of a value. -/
def write {α : Type} (c : Codec α) (a : α) : String := String.ofList (c.encode a).pretty

/-- The value of a text. -/
def read? {α : Type} (c : Codec α) (text : String) : Option α :=
  (Json.parse text.toList).bind c.decode?

/-- Signed 32-bit numbers. -/
def int32 : Codec Int := ⟨.integer, Json.int32?⟩

/-- Signed 64-bit numbers. -/
def int64 : Codec Int := ⟨.integer, Json.int64?⟩

/-- Truth values. -/
def bool : Codec Bool := ⟨.bool, Json.bool?⟩

/-- Lists. -/
def list {α : Type} (item : Codec α) : Codec (List α) :=
  ⟨fun items => .list (items.map item.encode), Json.list? item.decode?⟩

/-- Tables with 32-bit keys. -/
def table {α : Type} (value : Codec α) : Codec (OrderedMap Int α) :=
  ⟨Json.ofTable value.encode, Json.table? Json.int32? value.decode?⟩

/-- Tables with 64-bit keys. -/
def longTable {α : Type} (value : Codec α) : Codec (OrderedMap Int α) :=
  ⟨Json.ofTable value.encode, Json.table? Json.int64? value.decode?⟩

/-- A range with ends of the given width. -/
def range (bound : Codec Int) : Codec Interval where
  encode i := .object [("min".toList, bound.encode i.low), ("max".toList, bound.encode i.high)]
  decode? j :=
    match Json.record? ["min".toList, "max".toList] j with
    | some [low, high] => do return ⟨← bound.decode? low, ← bound.decode? high⟩
    | _ => none

/-- Flexibilities. -/
def flexibility : Codec Flexibility where
  encode f := .object [
    ("id".toList, int32.encode f.id),
    ("task_id".toList, int32.encode f.taskId),
    ("adaptable".toList, bool.encode f.adaptable),
    ("stopping_time".toList, (range int64).encode f.stoppingTime),
    ("running_time".toList, (range int32).encode f.runningTime),
    ("power_corridor".toList, (table (range int32)).encode f.powerCorridor),
    ("energy_corridor".toList, (table (range int32)).encode f.energyCorridor)]
  decode? j :=
    match Json.record? ["id".toList, "task_id".toList, "adaptable".toList,
      "stopping_time".toList, "running_time".toList, "power_corridor".toList,
      "energy_corridor".toList] j with
    | some [id, taskId, adaptable, stoppingTime, runningTime, powerCorridor, energyCorridor] => do
      return {
        id := ← int32.decode? id
        taskId := ← int32.decode? taskId
        adaptable := ← bool.decode? adaptable
        stoppingTime := ← (range int64).decode? stoppingTime
        runningTime := ← (range int32).decode? runningTime
        powerCorridor := ← (table (range int32)).decode? powerCorridor
        energyCorridor := ← (table (range int32)).decode? energyCorridor }
    | _ => none

/-- Tasks. -/
def task : Codec Task where
  encode t := .object [
    ("id".toList, int32.encode t.id),
    ("flexibility_id".toList, int32.encode t.flexibilityId),
    ("adaptable".toList, bool.encode t.adaptable),
    ("starting_time".toList, int64.encode t.startingTime),
    ("running_time".toList, int32.encode t.runningTime),
    ("power".toList, (table int32).encode t.power)]
  decode? j :=
    match Json.record? ["id".toList, "flexibility_id".toList, "adaptable".toList,
      "starting_time".toList, "running_time".toList, "power".toList] j with
    | some [id, flexibilityId, adaptable, startingTime, runningTime, power] => do
      return {
        id := ← int32.decode? id
        flexibilityId := ← int32.decode? flexibilityId
        adaptable := ← bool.decode? adaptable
        startingTime := ← int64.decode? startingTime
        runningTime := ← int32.decode? runningTime
        power := ← (table int32).decode? power }
    | _ => none

/-- The schedule of a device. -/
def deviceState : Codec DeviceState where
  encode s := .object [
    ("id_counter".toList, int32.encode s.idCounter),
    ("target_soc".toList, int32.encode s.targetSoc),
    ("target_soc_time".toList, int64.encode s.targetSocTime),
    ("flexibilities".toList, (table flexibility).encode s.flexibilities),
    ("tasks".toList, (table task).encode s.tasks),
    ("scheduled_power".toList, (longTable int32).encode s.scheduledPower)]
  decode? j :=
    match Json.record? ["id_counter".toList, "target_soc".toList, "target_soc_time".toList,
      "flexibilities".toList, "tasks".toList, "scheduled_power".toList] j with
    | some [idCounter, targetSoc, targetSocTime, flexibilities, tasks, scheduledPower] => do
      return {
        idCounter := ← int32.decode? idCounter
        targetSoc := ← int32.decode? targetSoc
        targetSocTime := ← int64.decode? targetSocTime
        flexibilities := ← (table flexibility).decode? flexibilities
        tasks := ← (table task).decode? tasks
        scheduledPower := ← (longTable int32).decode? scheduledPower }
    | _ => none

/-- Published schedules. -/
def publicSchedule : Codec PublicSchedule where
  encode s := .object [
    ("timestamp".toList, int64.encode s.timestamp),
    ("starting_time".toList, int64.encode s.startingTime),
    ("slot_length".toList, int64.encode s.slotLength),
    ("consumption".toList, (list int32).encode s.consumption),
    ("production".toList, (list int32).encode s.production),
    ("flexible_consumption".toList, (list int32).encode s.flexibleConsumption),
    ("flexible_production".toList, (list int32).encode s.flexibleProduction)]
  decode? j :=
    match Json.record? ["timestamp".toList, "starting_time".toList, "slot_length".toList,
      "consumption".toList, "production".toList, "flexible_consumption".toList,
      "flexible_production".toList] j with
    | some [timestamp, startingTime, slotLength, consumption, production, flexibleConsumption,
        flexibleProduction] => do
      return {
        timestamp := ← int64.decode? timestamp
        startingTime := ← int64.decode? startingTime
        slotLength := ← int64.decode? slotLength
        consumption := ← (list int32).decode? consumption
        production := ← (list int32).decode? production
        flexibleConsumption := ← (list int32).decode? flexibleConsumption
        flexibleProduction := ← (list int32).decode? flexibleProduction }
    | _ => none

/-- Published flexibility. -/
def publicFlexibility : Codec PublicFlexibility where
  encode f := .object [
    ("timestamp".toList, int64.encode f.timestamp),
    ("starting_time".toList, int64.encode f.startingTime),
    ("slot_length".toList, int64.encode f.slotLength),
    ("power_corridor".toList, (list (range int32)).encode f.powerCorridor),
    ("energy_corridor".toList, (list (range int32)).encode f.energyCorridor)]
  decode? j :=
    match Json.record? ["timestamp".toList, "starting_time".toList, "slot_length".toList,
      "power_corridor".toList, "energy_corridor".toList] j with
    | some [timestamp, startingTime, slotLength, powerCorridor, energyCorridor] => do
      return {
        timestamp := ← int64.decode? timestamp
        startingTime := ← int64.decode? startingTime
        slotLength := ← int64.decode? slotLength
        powerCorridor := ← (list (range int32)).decode? powerCorridor
        energyCorridor := ← (list (range int32)).decode? energyCorridor }
    | _ => none

/-- Kinds of publication, by name. -/
def publicationKind : Codec PublicationKind where
  encode k := .text k.name.toList
  decode? j := (Json.case? j).bind fun name => PublicationKind.ofName? (String.ofList name)

/-- Requests for publication. -/
def publicationRequest : Codec PublicationRequest where
  encode r := .object [
    ("kind".toList, publicationKind.encode r.kind),
    ("from".toList, int64.encode r.start),
    ("to".toList, int64.encode r.stop)]
  decode? j :=
    match Json.record? ["kind".toList, "from".toList, "to".toList] j with
    | some [kind, start, stop] => do
      return ⟨← publicationKind.decode? kind, ← int64.decode? start, ← int64.decode? stop⟩
    | _ => none

/-- The state of a scheduler. -/
def schedulerState : Codec SchedulerState where
  encode s := .object [
    ("target_schedules".toList, (longTable publicSchedule).encode s.targets),
    ("most_recent_target_optimization".toList, int64.encode s.lastTargetOptimization),
    ("latest_initial_publication".toList, int64.encode s.latestInitialPublication),
    ("latest_update_publication".toList, int64.encode s.latestUpdatePublication),
    ("incomplete_publications".toList, (list publicationRequest).encode s.incomplete)]
  decode? j :=
    match Json.record? ["target_schedules".toList, "most_recent_target_optimization".toList,
      "latest_initial_publication".toList, "latest_update_publication".toList,
      "incomplete_publications".toList] j with
    | some [targets, lastTargetOptimization, latestInitialPublication, latestUpdatePublication,
        incomplete] => do
      return {
        targets := ← (longTable publicSchedule).decode? targets
        lastTargetOptimization := ← int64.decode? lastTargetOptimization
        latestInitialPublication := ← int64.decode? latestInitialPublication
        latestUpdatePublication := ← int64.decode? latestUpdatePublication
        incomplete := ← (list publicationRequest).decode? incomplete }
    | _ => none

end Codec
end SiteDispatch
