/-
  SiteDispatch.Planning.Slack

  Collapses what planned tasks leave of their envelopes into one envelope per
  slot: the power slack as a time-weighted average, the energy slack at the end
  of the slot. The energy slack is narrowed by the window's buffer but always
  holds 0, the plan itself. A slot that a task or the window leaves early gets no
  energy slack from it.
-/

import SiteDispatch.Planning.Allocation
import SiteDispatch.Schedule.Public

namespace SiteDispatch

/-- A sum of bounds in Ws that is open as soon as one of them is. -/
inductive EnergySum
  | finite (ws : Int)
  | open
deriving DecidableEq

namespace EnergySum

/-- Adds a bound; `isOpen` says that it is none. -/
def add (sum : EnergySum) (ws : Int) (isOpen : Bool) : EnergySum :=
  match sum, isOpen with
  | finite total, false => finite (total + ws)
  | _, _ => .open

/-- The sum in Wh, with the given value for an open one. -/
def wattHours (openEnd : Int) : EnergySum → Int
  | finite ws => Quantity.saturate (Quantity.wattHours ws)
  | .open => openEnd

end EnergySum

/-- What one piece of a task adds to the slack of its slot. -/
structure SlackShare where
  slot : Nat
  /-- W, averaged over the slot -/
  powerLow : Float
  /-- W, averaged over the slot -/
  powerHigh : Float
  /-- Ws at the end of the slot, if the piece closes it -/
  energy : Option Interval

namespace SlackShare

/-- The share of a piece, `residual` being the envelope left by the task. -/
def ofPiece (slotLength : Int) (residual : Flexibility) (p : Piece) : SlackShare :=
  let power := (residual.powerCorridor.floorValue? p.start).getD Interval.zero
  let averaged := fun (watts : Int) =>
    Float.ofInt watts * Float.ofInt p.length / Float.ofInt slotLength
  { slot := p.slot
    powerLow := averaged power.low
    powerHigh := averaged power.high
    energy :=
      if p.closesSlot then
        some ((residual.energyConstraint? p.resumesAt).getD Interval.unbounded)
      else none }

/-- The shares of a planned task. -/
def ofTask (w : PlanningWindow) (slots : Nat) (f : Flexibility) (task : Task) : List SlackShare :=
  let residual := f.residual task
  (w.piecesOf residual.powerCorridor residual.energyCorridor slots task).map
    (ofPiece w.slotLength residual)

end SlackShare

/-- The planned tasks whose flexibility is known, with it, in order of device and
    plan. -/
def TaskPlan.withFlexibilities (plan : TaskPlan) (schedules : Schedules) :
    List (Flexibility × Task) :=
  plan.entries.flatMap fun (device, tasks) =>
    tasks.filterMap fun task =>
      ((schedules.get? device).bind (·.flexibility? task.flexibilityId)).map (·, task)

/-- Power slack of a slot in W. -/
def slotPower (shares : List SlackShare) : Interval :=
  ⟨Quantity.truncate32 (shares.foldl (fun sum s => sum + s.powerLow) 0.0),
    Quantity.truncate32 (shares.foldl (fun sum s => sum + s.powerHigh) 0.0)⟩

/-- Energy slack of a slot in Wh. -/
def slotEnergy (buffer : Int) (shares : List SlackShare) : Interval :=
  let bounds := shares.filterMap (·.energy)
  let low := bounds.foldl (fun sum b =>
    sum.add (min (b.low + buffer) 0) (b.low = Quantity.least)) (EnergySum.finite 0)
  let high := bounds.foldl (fun sum b =>
    sum.add (max (b.high - buffer) 0) (b.high = Quantity.greatest)) (EnergySum.finite 0)
  ⟨low.wattHours Quantity.least, high.wattHours Quantity.greatest⟩

/-- The slack around a plan in the first `slots` slots of a window. -/
def planSlack (w : PlanningWindow) (slots : Nat) (plan : TaskPlan) (schedules : Schedules)
    (timestamp : Int) : PublicFlexibility :=
  let shares := (plan.withFlexibilities schedules).flatMap fun (f, task) =>
    SlackShare.ofTask w slots f task
  let bySlot := (List.range slots).map fun i => shares.filter (fun s => s.slot = i)
  { timestamp := timestamp
    startingTime := w.origin
    slotLength := w.slotLength
    powerCorridor := bySlot.map slotPower
    energyCorridor := bySlot.map (slotEnergy w.buffer) }

/-- The slack, unless a task lies on a grid of slots without length. -/
def aggregate (w : PlanningWindow) (slots : Nat) (plan : TaskPlan) (schedules : Schedules)
    (timestamp : Int) : Except Halt PublicFlexibility :=
  if w.slotLength = 0 && !(plan.withFlexibilities schedules).isEmpty then
    .error .zeroSlotLength
  else .ok (planSlack w slots plan schedules timestamp)

end SiteDispatch
