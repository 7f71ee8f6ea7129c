/-
  SiteDispatch.Scheduler.Compliance

  Plans all devices anew towards the target in force, or towards no exchange until
  the end of the day without one. If the plan still leaves the target by more than
  the threshold, an update of the published schedule is queued.
-/

import SiteDispatch.Scheduler.Commitment

namespace SiteDispatch

/-- What an optimisation aims at. -/
structure ComplianceGoal where
  start : Int
  stop : Int
  /-- Start of the slot that contains `start`. -/
  slotStart : Int
  target : PublicSchedule
deriving DecidableEq

namespace Scheduler

/-- The goal of an optimisation at `now`. -/
def complianceGoal (s : Scheduler) (now : Int) : Except Halt ComplianceGoal := do
  let c := s.config
  Calendar.checkSlotLength c.slotLength
  let start := now + c.timeBuffer
  let slotStart := Calendar.slotStart c.zone start c.slotLength
  match s.state.targetInForce? start with
  | some target => return ⟨start, target.stop, slotStart, target⟩
  | none =>
    let stop := Calendar.startOfNextDay c.zone start
    return ⟨start, stop, slotStart,
      PublicSchedule.zero now slotStart c.slotLength (c.slotsBetween slotStart stop)⟩

/-- Notes an optimisation at `now`. An update is queued if the deviation that is
    left exceeds the threshold. -/
def concludeOptimization (s : Scheduler) (solution : TargetSolution) (now : Int) : Scheduler :=
  let s := s.save { s.state with lastTargetOptimization := now }
  if s.config.deviationThreshold < solution.maximumDeviation.natAbs then
    s.queuePublication ⟨.scheduleUpdate, solution.start, solution.stop⟩ now
  else s

end Scheduler

namespace SchedulerRun

variable {σ : Type}

/-- The problem that a goal poses. -/
def targetProblem (env : Surroundings σ) (goal : ComplianceGoal) (r : SchedulerRun σ) :
    Except Halt (Except SchedulingFailure TargetProblem × SchedulerRun σ) := do
  let c := r.scheduler.config
  match env.forecasts.both goal.slotStart c.slotLength (c.slotsBetween goal.slotStart goal.stop) with
  | .error failure => return (.error failure, r)
  | .ok (demand, production) =>
    let (schedules, r) ← r.retrieve env goal.start goal.stop
    return (.ok {
      start := goal.start
      stop := goal.stop
      currentSlotStart := goal.slotStart
      slotLength := c.slotLength
      demand := demand
      production := production
      schedules := schedules
      target := goal.target
      timeBuffer := c.timeBuffer
      buffer := c.energyBuffer }, r)

/-- Optimises compliance with the target and commits the plan. No solution if there
    is no time left to plan. -/
def optimize (env : Surroundings σ) (r : SchedulerRun σ) :
    Except Halt (Except SchedulingFailure (Option TargetSolution) × SchedulerRun σ) := do
  let r := { r with scheduler := r.scheduler.pruneTargets env.now }
  let goal ← r.scheduler.complianceGoal env.now
  if goal.stop ≤ goal.start then return (.ok none, r)
  else
    match ← r.targetProblem env goal with
    | (.error failure, r) => return (.error failure, r)
    | (.ok problem, r) =>
      match problem.solve with
      | .error e => return (.error (.targetCompliance e), r)
      | .ok solution =>
        let (_, r) ← r.commit env solution.tasks problem.schedules
        return (.ok (some solution),
          { r with scheduler := r.scheduler.concludeOptimization solution env.now })

end SchedulerRun
end SiteDispatch
