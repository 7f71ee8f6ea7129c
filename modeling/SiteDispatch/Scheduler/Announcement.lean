/-
  SiteDispatch.Scheduler.Announcement

  Optimises a requested window for self-consumption, commits the plan and publishes
  the schedule of the site. Updates are only published when they leave the agreed
  target by more than the threshold. What the counterparty does not take is kept
  for another attempt.
-/

import SiteDispatch.Scheduler.Commitment

namespace SiteDispatch

namespace Scheduler

/-- Window of a publication that is left at `now`: it begins with the next slot. -/
def publicationWindow (s : Scheduler) (request : PublicationRequest) (now : Int) :
    Except Halt (Int × Int) := do
  Calendar.checkSlotLength s.config.slotLength
  return (Calendar.ceilToSlot s.config.zone (max request.start now) s.config.slotLength, request.stop)

/-- Net exchange that `target` foresees at an instant. -/
def agreedAt? (target : PublicSchedule) (time : Int) : Option Int :=
  target.netAt? ((time - target.startingTime) / max target.slotLength 1)

/-- Whether some slot of a schedule differs from the target in force at its start by
    more than the threshold. Nothing deviates from a target that is not there. -/
def deviates (s : Scheduler) (schedule : PublicSchedule) : Bool :=
  match s.state.targetInForce? schedule.startingTime with
  | none => false
  | some target =>
    (List.range schedule.slots).any fun (i : Nat) =>
      match agreedAt? target (schedule.startingTime + i * schedule.slotLength) with
      | some agreed =>
        decide (s.config.deviationThreshold < ((schedule.net? i).getD 0 - agreed).natAbs)
      | none => false

/-- Notes an accepted publication of a window that ends at `stop`. A day-ahead
    schedule becomes the target. -/
def concludePublication (s : Scheduler) (request : PublicationRequest) (schedule : PublicSchedule)
    (stop now : Int) : Scheduler :=
  let state := s.state.markComplete request
  s.save <| match request.kind with
    | .initialSchedule =>
      { state with
        latestInitialPublication := max state.latestInitialPublication stop }.addTarget schedule
    | .scheduleUpdate => { state with latestUpdatePublication := now }

end Scheduler

namespace SchedulerRun

variable {σ : Type}

/-- The problem that a window poses. -/
def selfConsumptionProblem (env : Surroundings σ) (start stop : Int) (r : SchedulerRun σ) :
    Except Halt (Except SchedulingFailure SelfConsumptionProblem × SchedulerRun σ) := do
  let c := r.scheduler.config
  match env.forecasts.both start c.slotLength (c.slotsBetween start stop) with
  | .error failure => return (.error failure, r)
  | .ok (demand, production) =>
    let (schedules, r) ← r.retrieve env start stop
    return (.ok {
      start := start
      stop := stop
      slotLength := c.slotLength
      demand := demand
      production := production
      schedules := schedules
      buffer := c.energyBuffer }, r)

/-- Gives a solution to the counterparty, unless it is an update within the target. -/
def announce (env : Surroundings σ) (request : PublicationRequest)
    (solution : SelfConsumptionSolution) (r : SchedulerRun σ) :
    Except SchedulingFailure Unit × SchedulerRun σ :=
  if request.kind = .scheduleUpdate && !r.scheduler.deviates solution.schedule then (.ok (), r)
  else
    let publication : Publication := ⟨request.kind, solution.schedule, solution.flexibility⟩
    match env.publisher publication with
    | .error reason =>
      (.error (.publication reason),
        { r with scheduler := r.scheduler.save (r.scheduler.state.markIncomplete request) })
    | .ok () =>
      (.ok (),
        { r with
          scheduler :=
            r.scheduler.concludePublication request solution.schedule solution.stop env.now
          published := r.published ++ [publication] })

/-- Handles a publication request. -/
def publish (env : Surroundings σ) (request : PublicationRequest) (r : SchedulerRun σ) :
    Except Halt (Except SchedulingFailure Unit × SchedulerRun σ) := do
  let (start, stop) ← r.scheduler.publicationWindow request env.now
  if stop ≤ start then
    return (.ok (),
      { r with scheduler := r.scheduler.save (r.scheduler.state.markComplete request) })
  else
    match ← r.selfConsumptionProblem env start stop with
    | (.error failure, r) => return (.error failure, r)
    | (.ok problem, r) =>
      match problem.solve env.now with
      | .error e => return (.error (.selfConsumption e), r)
      | .ok solution =>
        let (_, r) ← r.commit env solution.tasks problem.schedules
        return r.announce env request solution

end SchedulerRun
end SiteDispatch
