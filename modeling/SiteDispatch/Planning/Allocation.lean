/-
  SiteDispatch.Planning.Allocation

  Greedy allocation of power to slots. Devices are visited in order and their
  flexibilities by id; each takes what it can towards the goal of a slot before
  the next one is asked, so the result depends on that order. What a task adds
  to the slots is booked in a ledger of Wh per slot.
-/

import SiteDispatch.Halt
import SiteDispatch.Planning.Walk
import SiteDispatch.Schedule.Device

namespace SiteDispatch

/-! ## What is planned -/

/-- A task for a free flexibility: as early as allowed but not before `start`, as
    long as allowed but ending in time. -/
def Flexibility.deriveTask (f : Flexibility) (start : Int) : Task :=
  let first := max f.earliestStart start
  let longest := f.runningTime.high
  let runningTime :=
    if f.stoppingTime.high < first + longest then
      max (f.stoppingTime.high - first) f.runningTime.low
    else longest
  Task.idle Task.unregistered f.id f.adaptable first runningTime

/-- Whether a device's task is planned anew. -/
def Task.isReplanned (t : Task) (earliestModifiable : Int) : Bool :=
  0 ≤ t.flexibilityId && (t.adaptable || earliestModifiable ≤ t.startingTime)

/-- The flexibilities of a device worth planning with their tasks, by id. Free
    ones get a derived task. -/
def ScheduleData.plannable (d : ScheduleData) (w : PlanningWindow) :
    OrderedMap Int (Flexibility × Task) :=
  let committed := d.tasks.foldl (fun found task =>
    if task.isReplanned w.earliestModifiable then
      match d.flexibility? task.flexibilityId with
      | some f => found.insert f.id (f, task)
      | none => found
    else found) OrderedMap.empty
  d.flexibilities.foldl (fun found f =>
    if f.isFree && w.earliestModifiable ≤ f.latestStart then
      found.insertNew f.id (f, f.deriveTask w.start)
    else found) committed

/-! ## Planning one task -/

/-- A plan in the making. -/
structure Draft where
  /-- Entries chosen so far, latest first. -/
  chosen : List (Int × Int)
  /-- Ws delivered since the walk began. -/
  energy : Int
  /-- Ws delivered in the current slot and not yet booked. -/
  slotEnergy : Int
  /-- Wh per slot -/
  ledger : List Int
deriving DecidableEq

/-- Adds Wh to a slot of the ledger. -/
def book (ledger : List Int) (slot : Nat) (wattHours : Int) : List Int :=
  ledger.modify slot (· + wattHours)

/-- Powers at which the energy bound at the end of a piece is kept, within the
    power corridor; open ends of the energy bound are no bound. None if there is
    no such power. -/
def admissible (corridor bound : Interval) (energy length : Int) : Option Interval :=
  let low := if bound.low = Quantity.least then corridor.low
    else max corridor.low (-(Int.fdiv (-(bound.low - energy)) length))
  let high := if bound.high = Quantity.greatest then corridor.high
    else min corridor.high (Int.fdiv (bound.high - energy) length)
  if high < low then none else some ⟨low, high⟩

/-- Power that would bring a slot to its goal, 0 W without a goal. -/
def desiredPower (goal : Option Int) (booked slotLength : Int) : Int :=
  match goal with
  | some g => ((g - booked) * 3600).tdiv slotLength
  | none => 0

/-- The power chosen for a piece: the admissible one nearest to the desired one,
    0 W if none is admissible. -/
def choosePower (f : Flexibility) (w : PlanningWindow) (goals : List (Option Int))
    (draft : Draft) (p : Piece) : Int :=
  let corridor := (f.powerCorridor.floorValue? p.start).getD Interval.zero
  let bound := ((f.energyConstraint? (Quantity.low32 p.stop)).getD Interval.unbounded).buffered
    w.buffer
  match admissible corridor bound draft.energy p.length with
  | none => 0
  | some range =>
    let desired :=
      desiredPower (goals.getD p.slot none) (draft.ledger.getD p.slot 0) w.slotLength
    max range.low (min desired range.high)

/-- Plans one piece. A slot is booked when it is complete. -/
def Draft.extend (f : Flexibility) (w : PlanningWindow) (goals : List (Option Int))
    (draft : Draft) (p : Piece) : Draft :=
  let value := choosePower f w goals draft p
  let slotEnergy := draft.slotEnergy + value * p.length
  { chosen := (p.start, value) :: draft.chosen
    energy := draft.energy + value * p.length
    slotEnergy := if p.closesSlot then 0 else slotEnergy
    ledger :=
      if p.closesSlot then book draft.ledger p.slot (Quantity.nearestWattHours slotEnergy)
      else draft.ledger }

/-- The profile of a finished draft: at rest before and after the planned part. -/
def Draft.profile (draft : Draft) (resumesAt runningTime : Int) : PowerProfile :=
  let planned := OrderedMap.ofList ((0, 0) :: draft.chosen.reverse)
  let rested := if resumesAt < runningTime then planned.insert resumesAt 0 else planned
  PowerProfile.compress (rested.insert runningTime 0) runningTime

/-- Plans one task piece by piece and books it. -/
def planTask (w : PlanningWindow) (goals : List (Option Int)) (f : Flexibility) (task : Task)
    (ledger : List Int) : Task × List Int :=
  let walk := w.walk task
  let way := w.piecesOf f.powerCorridor f.energyCorridor ledger.length task
  let draft := way.foldl (Draft.extend f w goals) ⟨[], 0, 0, ledger⟩
  let resumesAt := (way.getLast?.map Piece.resumesAt).getD walk.start
  let slot := (way.getLast?.map Piece.nextSlot).getD walk.slot
  ({ task with power := draft.profile resumesAt task.runningTime },
    if draft.slotEnergy = 0 then draft.ledger
    else book draft.ledger slot (Quantity.nearestWattHours draft.slotEnergy))

/-! ## Planning all tasks -/

/-- Plans tasks one after the other over the same ledger. -/
def planTasks (w : PlanningWindow) (goals : List (Option Int)) :
    List (Flexibility × Task) → List Int → List Task × List Int
  | [], ledger => ([], ledger)
  | (f, task) :: rest, ledger =>
    let (planned, ledger) := planTask w goals f task ledger
    let (others, ledger) := planTasks w goals rest ledger
    (planned :: others, ledger)

/-- Plans devices one after the other over the same ledger. -/
def planDevices (w : PlanningWindow) (goals : List (Option Int)) :
    List (DeviceId × ScheduleData) → List Int → List (DeviceId × List Task) × List Int
  | [], ledger => ([], ledger)
  | (device, data) :: rest, ledger =>
    let (tasks, ledger) := planTasks w goals (data.plannable w).values ledger
    let (others, ledger) := planDevices w goals rest ledger
    ((device, tasks) :: others, ledger)

/-- The plan for all devices and the ledger it leaves. Goals and ledger hold Wh
    per slot from the window's origin on; a slot without a goal is steered
    towards 0 W. -/
def allocation (w : PlanningWindow) (goals : List (Option Int)) (ledger : List Int)
    (schedules : Schedules) : TaskPlan × List Int :=
  let (plan, ledger) := planDevices w goals schedules.entries ledger
  (OrderedMap.ofList plan, ledger)

/-- The allocation, unless there is something to plan on a grid of slots without
    length. -/
def allocate (w : PlanningWindow) (goals : List (Option Int)) (ledger : List Int)
    (schedules : Schedules) : Except Halt (TaskPlan × List Int) :=
  if w.slotLength = 0 && schedules.values.any (fun d => !(d.plannable w).isEmpty) then
    .error .zeroSlotLength
  else .ok (allocation w goals ledger schedules)

end SiteDispatch
