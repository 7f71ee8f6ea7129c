/-
  SiteDispatch.Scheduler.Periodic

  Bookkeeping of the tasks that are repeated: when each ran last, how it went and
  how often.
-/

namespace SiteDispatch

/-- How the runs of one repeated task went. -/
structure RunStatus where
  lastRun : Option Int
  lastSuccess : Option Int
  /-- Why the last run failed, if it did. -/
  lastError : Option String
  runs : Nat
  successes : Nat
  failures : Nat
deriving DecidableEq

namespace RunStatus

/-- A task that has not run yet. -/
def fresh : RunStatus := ⟨none, none, none, 0, 0, 0⟩

/-- Notes a run that was started at `now`, and its outcome. -/
def note (s : RunStatus) (now : Int) (outcome : Except String Unit) : RunStatus :=
  let s := { s with lastRun := some now, runs := s.runs + 1 }
  match outcome with
  | .ok () => { s with lastSuccess := some now, lastError := none, successes := s.successes + 1 }
  | .error reason => { s with lastError := some reason, failures := s.failures + 1 }

end RunStatus

/-- Status of every repeated task of a site. -/
structure PeriodicStatuses where
  /-- Day-ahead publications. -/
  publication : RunStatus
  /-- Optimisations at the start of a day. -/
  midnight : RunStatus
  /-- Further attempts at incomplete publications. -/
  retry : RunStatus
  /-- Measurements. -/
  monitoring : RunStatus
deriving DecidableEq

namespace PeriodicStatuses

/-- No task has run yet. -/
def fresh : PeriodicStatuses :=
  ⟨RunStatus.fresh, RunStatus.fresh, RunStatus.fresh, RunStatus.fresh⟩

/-- The statuses with the names of their tasks. -/
def toList (s : PeriodicStatuses) : List (String × RunStatus) :=
  [("publication", s.publication), ("midnight", s.midnight), ("retry", s.retry),
    ("monitoring", s.monitoring)]

end PeriodicStatuses
end SiteDispatch
