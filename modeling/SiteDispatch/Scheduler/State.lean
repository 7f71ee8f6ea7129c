/-
  SiteDispatch.Scheduler.State

  The part of the site scheduler that survives a restart: agreed target schedules,
  when it last optimised and published, and publications still to be made.
-/

import SiteDispatch.OrderedMap.Basic
import SiteDispatch.Publication
import SiteDispatch.Schedule.Public

namespace SiteDispatch

/-- What a scheduler has to remember. -/
structure SchedulerState where
  /-- Agreed target schedules by starting time. -/
  targets : OrderedMap Int PublicSchedule
  lastTargetOptimization : Int
  /-- End of the window covered by the latest accepted initial schedule. -/
  latestInitialPublication : Int
  latestUpdatePublication : Int
  /-- Publications that failed and are to be tried again. -/
  incomplete : List PublicationRequest
deriving DecidableEq, Inhabited

namespace SchedulerState

/-- A scheduler that has not done anything yet. -/
def fresh : SchedulerState := ⟨.empty, 0, 0, 0, []⟩

/-- The latest target that has begun, if it has not ended. -/
def targetInForce? (s : SchedulerState) (now : Int) : Option PublicSchedule :=
  (s.targets.floorValue? now).filter (fun t => now < t.stop)

/-- Enters a target; it replaces one with the same start. -/
def addTarget (s : SchedulerState) (target : PublicSchedule) : SchedulerState :=
  { s with targets := s.targets.insert target.startingTime target }

/-- Forgets targets that have ended and counts them. -/
def pruneTargets (s : SchedulerState) (now : Int) : Nat × SchedulerState :=
  let left := s.targets.filter fun _ t => now < t.stop
  (s.targets.size - left.size, { s with targets := left })

/-- Remembers a publication that has not gone through. -/
def markIncomplete (s : SchedulerState) (request : PublicationRequest) : SchedulerState :=
  if request ∈ s.incomplete then s else { s with incomplete := s.incomplete ++ [request] }

/-- Forgets a publication that has gone through. -/
def markComplete (s : SchedulerState) (request : PublicationRequest) : SchedulerState :=
  { s with incomplete := s.incomplete.filter (· ≠ request) }

/-- Incomplete publications that still cover the future; others are forgotten. -/
def retryable (s : SchedulerState) (now : Int) : List PublicationRequest × SchedulerState :=
  let left := s.incomplete.filter (fun r => now < r.stop)
  (left, { s with incomplete := left })

end SchedulerState
end SiteDispatch
