/-
  SiteDispatch.Device.Offer

  What a device offers: one flexibility with an idle task for each local day, with
  corridors that are derived anew from the energy expected whenever somebody asks
  for the schedule.
-/

import SiteDispatch.Calendar.Day
import SiteDispatch.Device.State
import SiteDispatch.Halt
import SiteDispatch.Schedule.Device

namespace SiteDispatch

/-- Why a store does not answer. -/
inductive StoreError
  | rangeTooLong (start stop : Int)
  | emptyRange (start stop : Int)
  | storage (reason : String)
  | halted (halt : Halt)
deriving DecidableEq

/-- The short name of an error. -/
def StoreError.name : StoreError → String
  | rangeTooLong .. => "RangeTooLong"
  | emptyRange .. => "EmptyRange"
  | storage .. => "Storage"
  | halted .. => ""

/-- An error in words. -/
def StoreError.message : StoreError → String
  | rangeTooLong start stop => s!"requested range {start}..{stop} exceeds two days"
  | emptyRange start stop => s!"requested range {start}..{stop} ends before it starts"
  | storage reason => s!"storage state unavailable: {reason}"
  | halted _ => ""

namespace DeviceState

/-- Longest window that is answered, two days. -/
def maxScheduleRange : Int := 2 * 86400

/-! ## New days -/

/-- Ids count up and start again at 0 after the largest. -/
def idAfter (id : Int) : Int := if id = Quantity.greatest then 0 else id + 1

/-- The first id from `id` on that is not used, at most `tries` used ones being
    skipped. -/
def firstUnused (used : Int → Bool) : Nat → Int → Int
  | 0, id => id
  | tries + 1, id => if used id then firstUnused used tries (idAfter id) else id

/-- An id that neither a flexibility nor a task has. -/
def nextId (s : DeviceState) : Int :=
  firstUnused (fun id => s.flexibilities.contains id || s.tasks.contains id)
    (s.flexibilities.size + s.tasks.size) s.idCounter

/-- The id of the task that covers `start`, after a flexibility and an idle task
    for `[start, stop)` have been created if there was none. -/
def addDay (s : DeviceState) (start stop stored : Int) (c : DeviceConfig) : Int × DeviceState :=
  match s.taskIdAt? start false with
  | some id => (id, s)
  | none =>
    let id := s.nextId
    let runningTime := Quantity.low32 (stop - start)
    let flexibility : Flexibility :=
      { id := id
        taskId := id
        adaptable := true
        stoppingTime := ⟨stop, stop⟩
        runningTime := ⟨runningTime, runningTime⟩
        powerCorridor := .singleton 0 c.powerRange
        energyCorridor := .singleton 0 (c.energyWindow stored) }
    (id,
      { s with
        idCounter := idAfter id
        flexibilities := s.flexibilities.insert id flexibility
        tasks := s.tasks.insert id (Task.idle id id true start runningTime)
        scheduledPower := s.scheduledPower.insertNew start 0 })

/-- The task that covers `time`, the local day being created if needed. -/
def ensureDay (s : DeviceState) (time : Int) (stopIncluded : Bool) (now stored : Int)
    (zone : Zone) (c : DeviceConfig) : Int × DeviceState :=
  match s.taskIdAt? time stopIncluded with
  | some id => (id, s)
  | none =>
    let start := Calendar.startOfDay zone time
    s.addDay start (Calendar.startOfNextDay zone time) (s.expectedEnergy now start stored) c

/-! ## Corridors -/

/-- Replaces the corridors of a flexibility. -/
def setCorridors (s : DeviceState) (id : Int) (power energy : Corridor) : DeviceState :=
  { s with flexibilities := s.flexibilities.modify id fun f =>
      { f with powerCorridor := power, energyCorridor := energy } }

/-- Corridors of a started task: nothing is offered before `now`, or before the
    time of an active charge target; from then on the energy expected bounds the
    offer. -/
def refreshStarted (s : DeviceState) (task : Task) (now stored : Int) (c : DeviceConfig) :
    Except Halt DeviceState := do
  let offerFrom := if s.socTargetActive now then s.targetSocTime else now
  let offset ← Halt.clamp 0 task.runningTime (offerFrom - task.startingTime)
  let power := (OrderedMap.singleton 0 Interval.zero).insert offset c.powerRange
  let energy := ((OrderedMap.singleton 0 Interval.unbounded).insert
    (max (offset - 1) 0) Interval.unbounded).insert offset
    (c.energyWindow (s.expectedEnergy now offerFrom stored))
  return s.setCorridors task.flexibilityId power energy

/-- Corridors of a future task: the energy expected at its start bounds the offer,
    which is blocked until an active charge target has been reached. -/
def refreshFuture (s : DeviceState) (task : Task) (now stored : Int) (c : DeviceConfig) :
    Except Halt DeviceState := do
  let energy := OrderedMap.singleton 0
    (c.energyWindow (s.expectedEnergy now task.startingTime stored))
  if s.socTargetActive now && task.startingTime < s.targetSocTime then
    let offset ← Halt.clamp 0 task.runningTime (s.targetSocTime - task.startingTime)
    return s.setCorridors task.flexibilityId
      ((OrderedMap.singleton 0 Interval.zero).insert offset c.powerRange) energy
  else
    return s.setCorridors task.flexibilityId (.singleton 0 c.powerRange) energy

/-- Derives the corridors of a task anew. -/
def refresh (s : DeviceState) (task : Task) (now stored : Int) (c : DeviceConfig) :
    Except Halt DeviceState :=
  if task.startingTime ≤ now then s.refreshStarted task now stored c
  else s.refreshFuture task now stored c

/-- Derives the corridors of all tasks with the given ids anew. -/
def refreshAll (now stored : Int) (c : DeviceConfig) :
    List Int → DeviceState → Except Halt DeviceState
  | [], s => .ok s
  | id :: rest, s =>
    match s.tasks.get? id with
    | none => refreshAll now stored c rest s
    | some task => do refreshAll now stored c rest (← s.refresh task now stored c)

/-! ## The answer -/

/-- The daily tasks that cover `[start, stop]`, created where missing, with their
    corridors brought up to date. -/
def getSchedule (s : DeviceState) (device : DeviceId) (start stop now stored : Int)
    (zone : Zone) (c : DeviceConfig) : Except StoreError (ScheduleSummary × DeviceState) :=
  if stop < start then .error (.emptyRange start stop)
  else if maxScheduleRange < stop - start then .error (.rangeTooLong start stop)
  else
    let (first, s) := s.ensureDay start false now stored zone c
    let (last, s) := s.ensureDay stop true now stored zone c
    let taskIds := if last = first then [first] else [first, last]
    match refreshAll now stored c taskIds s with
    | .error halt => .error (.halted halt)
    | .ok refreshed =>
      .ok
        ({ device := device
           start := start
           stop := stop
           taskIds := taskIds
           flexibilityIds := taskIds.filterMap fun id =>
             (s.tasks.get? id).map (·.flexibilityId)
           constraints := [] },
          refreshed)

end DeviceState
end SiteDispatch
