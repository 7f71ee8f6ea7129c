/-
  SiteDispatch.Planning.Optimization

  The two problems the site solves: as little exchange as possible in every slot,
  and following an agreed schedule.
-/

import SiteDispatch.Planning.Slack

namespace SiteDispatch

/-- Why a problem cannot be solved. -/
inductive OptimizationError
  | invalidSlotLength (length : Int)
  | slotLengthMismatch (problem target : Int)
  | forecastLength (demand production : Nat)
  | emptyWindow (start stop : Int)
deriving DecidableEq

/-- The short name of an error. -/
def OptimizationError.name : OptimizationError → String
  | invalidSlotLength .. => "InvalidSlotLength"
  | slotLengthMismatch .. => "SlotLengthMismatch"
  | forecastLength .. => "ForecastLength"
  | emptyWindow .. => "EmptyWindow"

/-- An error in words. -/
def OptimizationError.message : OptimizationError → String
  | invalidSlotLength length => s!"slot length must be positive, got {length}"
  | slotLengthMismatch problem target =>
    s!"target schedule uses {target} s slots, problem uses {problem} s"
  | forecastLength demand production =>
    s!"forecast lengths differ: demand {demand}, production {production}"
  | emptyWindow start stop => s!"optimization window {start}..{stop} is empty"

/-- Wh per slot that the site exchanges without its flexible devices. -/
def netForecast (demand production : List Int) : List Int := List.zipWith (· + ·) demand production

/-- What several values amount to. -/
def total (values : List Int) : Int := values.foldr (· + ·) 0

/-! ## Least exchange -/

/-- `start` is a slot start; forecasts hold one value in Wh per slot from there. -/
structure SelfConsumptionProblem where
  start : Int
  stop : Int
  slotLength : Int
  /-- Wh per slot, positive -/
  demand : List Int
  /-- Wh per slot, negative -/
  production : List Int
  schedules : Schedules
  /-- Ws -/
  buffer : Int

/-- The plan found, with the net schedule that results from it. -/
structure SelfConsumptionSolution where
  start : Int
  stop : Int
  tasks : TaskPlan
  schedule : PublicSchedule
  flexibility : PublicFlexibility
  /-- Wh -/
  expectedBought : Int
  /-- Wh -/
  expectedSold : Int

namespace SelfConsumptionProblem

/-- The window to be planned. -/
def window (p : SelfConsumptionProblem) : PlanningWindow where
  origin := p.start
  start := p.start
  stop := p.stop
  slotLength := p.slotLength
  earliestModifiable := p.start
  buffer := p.buffer

/-- Steers the exchange of every slot towards zero. -/
def solve (p : SelfConsumptionProblem) (timestamp : Int) :
    Except OptimizationError SelfConsumptionSolution :=
  if p.slotLength ≤ 0 then .error (.invalidSlotLength p.slotLength)
  else if p.stop ≤ p.start then .error (.emptyWindow p.start p.stop)
  else if p.demand.length ≠ p.production.length then
    .error (.forecastLength p.demand.length p.production.length)
  else
    let forecast := netForecast p.demand p.production
    let slots := forecast.length
    let (tasks, ledger) :=
      allocation p.window (List.replicate slots (some 0)) forecast p.schedules
    .ok
      { start := p.start
        stop := p.stop
        tasks := tasks
        schedule :=
          { PublicSchedule.zero timestamp p.start p.slotLength slots with
            consumption :=
              List.zipWith (fun net produced => Quantity.low32 (net - produced)) ledger p.production
            production := p.production }
        flexibility := planSlack p.window slots tasks p.schedules timestamp
        expectedBought := total (ledger.filter (0 < ·))
        expectedSold := -total (ledger.filter (· < 0)) }

end SelfConsumptionProblem

/-! ## Following a target -/

/-- Forecasts start at `currentSlotStart`; allocation starts at `start`. -/
structure TargetProblem where
  start : Int
  stop : Int
  currentSlotStart : Int
  slotLength : Int
  demand : List Int
  production : List Int
  schedules : Schedules
  target : PublicSchedule
  /-- Only tasks that start this much after `start` are planned anew unless
      adaptable. -/
  timeBuffer : Int
  /-- Ws -/
  buffer : Int

/-- The plan found, with what is left of the target. -/
structure TargetSolution where
  start : Int
  stop : Int
  tasks : TaskPlan
  /-- Sum of the magnitudes of the net exchange per slot, Wh. -/
  cumulativeDeviation : Int
  /-- Net exchange of the largest magnitude, Wh; the first of several. -/
  maximumDeviation : Int

/-- The first of the values with the largest magnitude, 0 if there is none. -/
def largestMagnitude (values : List Int) : Int :=
  values.foldl (fun most x => if most.natAbs < x.natAbs then x else most) 0

namespace TargetProblem

/-- The window to be planned. -/
def window (p : TargetProblem) : PlanningWindow where
  origin := p.currentSlotStart
  start := p.start
  stop := p.stop
  slotLength := p.slotLength
  earliestModifiable := p.start + p.timeBuffer
  buffer := p.buffer

/-- Goals per forecast slot, read from the target schedule on its own grid. -/
def goals (p : TargetProblem) (slots : Nat) : List (Option Int) :=
  let offset := (p.currentSlotStart - p.target.startingTime) / p.slotLength
  (List.range slots).map fun (i : Nat) => p.target.netAt? (i + offset)

/-- Steers the exchange of every slot towards the target schedule. -/
def solve (p : TargetProblem) : Except OptimizationError TargetSolution :=
  if p.slotLength ≤ 0 then .error (.invalidSlotLength p.slotLength)
  else if p.target.slotLength ≠ p.slotLength then
    .error (.slotLengthMismatch p.slotLength p.target.slotLength)
  else if p.stop ≤ p.start then .error (.emptyWindow p.start p.stop)
  else if p.demand.length ≠ p.production.length then
    .error (.forecastLength p.demand.length p.production.length)
  else
    let forecast := netForecast p.demand p.production
    let (tasks, ledger) := allocation p.window (p.goals forecast.length) forecast p.schedules
    .ok
      { start := p.start
        stop := p.stop
        tasks := tasks
        cumulativeDeviation := total (ledger.map fun net => (net.natAbs : Int))
        maximumDeviation := largestMagnitude ledger }

end TargetProblem
end SiteDispatch
