/-
  SiteDispatch.Queue.Basic

  Optimisation and publication jobs in order of eligibility. Every kind of job has
  a rule of its own: initial publications are always queued, updates and unforced
  optimisations are dropped while one is pending or ran too recently, forced
  optimisations are put off until enough time has passed.
-/

import SiteDispatch.OrderedMap.Basic
import SiteDispatch.Publication
import SiteDispatch.Quantity

namespace SiteDispatch

/-- What the scheduler can be asked to do. -/
inductive Job
  | optimizeTargetCompliance
  | publish (request : PublicationRequest)
deriving DecidableEq, Repr

/-- Pending jobs by the time at which they become eligible. -/
structure JobQueue where
  /-- Least time between two optimisations, seconds. -/
  complianceInterval : Int
  /-- Least time between two updates, seconds. -/
  updateInterval : Int
  /-- Eligible time of each pending optimisation. -/
  target : OrderedMap Int Unit
  initial : OrderedMap Int PublicationRequest
  update : OrderedMap Int PublicationRequest
  lastTargetRun : Option Int
  lastUpdateRun : Option Int
deriving DecidableEq

namespace JobQueue

/-- A queue without jobs. -/
def empty (complianceInterval updateInterval : Int) : JobQueue :=
  ⟨complianceInterval, updateInterval, .empty, .empty, .empty, none, none⟩

/-- The earliest time at which a pending job is eligible. -/
def nextWake? (q : JobQueue) : Option Int :=
  (q.initial.firstKey?.toList ++ q.update.firstKey?.toList ++ q.target.firstKey?.toList).min?

/-- The number of pending jobs. -/
def pendingJobs (q : JobQueue) : Nat := q.target.size + q.initial.size + q.update.size

/-- Notes the last optimisation of an earlier run, if there was one. -/
def restoreLastTargetRun (q : JobQueue) (time : Int) : JobQueue :=
  if 0 < time then { q with lastTargetRun := some time } else q

/-- The first time from `now` on at which a job may run again. -/
def rateLimited (now : Int) (last : Option Int) (interval : Int) : Int :=
  match last with
  | some last => max now (Quantity.low64 (last + interval))
  | none => now

/-- Whether a job is dropped: one is pending already, or the last run is too
    recent. -/
def coalesced (pending : Bool) (now : Int) (last : Option Int) (interval : Int) : Bool :=
  pending || match last with
    | some last => now < Quantity.low64 (last + interval)
    | none => false

/-- Queues an optimisation. Answers whether it was queued. -/
def queueTargetOptimization (q : JobQueue) (force : Bool) (now : Int) : Bool × JobQueue :=
  if force then
    (true, { q with
      target := q.target.insert (rateLimited now q.lastTargetRun q.complianceInterval) () })
  else if coalesced (!q.target.isEmpty) now q.lastTargetRun q.complianceInterval then (false, q)
  else (true, { q with target := q.target.insert now () })

/-- The first time from `time` on that is not among the ascending `taken` ones. -/
def firstFree : List Int → Int → Int
  | [], time => time
  | t :: taken, time => if t = time then firstFree taken (time + 1) else firstFree taken time

/-- Queues a publication. Answers whether it was queued. -/
def queuePublication (q : JobQueue) (request : PublicationRequest) (now : Int) :
    Bool × JobQueue :=
  match request.kind with
  | .initialSchedule =>
    (true, { q with initial := q.initial.insert (firstFree q.initial.keys now) request })
  | .scheduleUpdate =>
    if coalesced (!q.update.isEmpty) now q.lastUpdateRun q.updateInterval then (false, q)
    else (true, { q with update := q.update.insert now request })

/-- Takes the earliest job that is eligible at `now`. At the same time initial
    publications go first, then updates, then optimisations. -/
def takeDue (q : JobQueue) (now : Int) : Option Job × JobQueue :=
  match q.nextWake?.filter (· ≤ now) with
  | none => (none, q)
  | some time =>
    match q.initial.get? time with
    | some request => (some (.publish request), { q with initial := q.initial.erase time })
    | none =>
      match q.update.get? time with
      | some request =>
        (some (.publish request),
          { q with update := q.update.erase time, lastUpdateRun := some now })
      | none =>
        match q.target.get? time with
        | some () =>
          (some .optimizeTargetCompliance,
            { q with target := q.target.erase time, lastTargetRun := some now })
        | none => (none, q)

end JobQueue
end SiteDispatch
