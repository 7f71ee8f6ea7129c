/-
  SiteDispatch.Scheduler.Basic

  The scheduler of a site: its configuration, the state that survives a restart
  with the file that keeps it, the adaptable tasks it knows of and its job queue.
-/

import SiteDispatch.Adaptation.Round
import SiteDispatch.Calendar.Slot
import SiteDispatch.Scheduler.State
import SiteDispatch.Snapshot.File

namespace SiteDispatch

/-- Configuration of a scheduler. -/
structure SchedulerConfig where
  zone : Zone
  /-- Devices whose schedules are planned. -/
  providers : List DeviceId
  /-- seconds -/
  slotLength : Int
  /-- Duration of a correction, seconds. -/
  adaptationHorizon : Int
  /-- Least time between two optimisations, seconds. -/
  complianceInterval : Int
  /-- Least time between two published updates, seconds. -/
  updateInterval : Int
  /-- Deviation per slot from which it is reported, Wh. -/
  deviationThreshold : Int
  /-- Energy kept free on both sides of the energy corridors, Ws. -/
  energyBuffer : Int
  /-- Time between the start of an optimisation and its window, seconds. -/
  timeBuffer : Int
  /-- Local time of day of the day-ahead publication, seconds after midnight. -/
  publicationTime : Int
  /-- Longest time a device is waited for, seconds. -/
  callLimit : Nat
  /-- Devices asked at the same time. -/
  lanes : Nat

/-- Slots needed to cover `[start, stop)`. -/
def SchedulerConfig.slotsBetween (c : SchedulerConfig) (start stop : Int) : Nat :=
  let length := max c.slotLength 1
  ((max (stop - start) 0 + length - 1) / length).toNat

/-- What the snapshot file of a scheduler holds: a state, or something that cannot
    be understood. -/
abbrev SchedulerFile := SnapshotFile (Option SchedulerState)

/-- A scheduler between two requests. -/
structure Scheduler where
  config : SchedulerConfig
  state : SchedulerState
  file : SchedulerFile
  adapter : Adapter

namespace Scheduler

/-- Restores the state from a file. The queue starts empty but remembers the last
    optimisation. -/
def restore (config : SchedulerConfig) (file : SchedulerFile) : Scheduler :=
  let (state, _, file) := file.reopened.load id SchedulerState.fresh
  let queue := (JobQueue.empty config.complianceInterval config.updateInterval).restoreLastTargetRun
    state.lastTargetOptimization
  ⟨config, state, file, ⟨.empty, queue⟩⟩

/-- The scheduler as it comes up again on the same file. -/
def restart (s : Scheduler) : Scheduler := restore s.config s.file

/-- Takes over a new state and saves it. -/
def save (s : Scheduler) (state : SchedulerState) : Scheduler :=
  { s with state := state, file := s.file.save (some state) true }

/-- Whether the file holds the present state; none without a file. -/
def saved? (s : Scheduler) : Option Bool := s.file.content.map fun content => content = some s.state

/-! ## Queue -/

/-- The jobs to be done. -/
def queue (s : Scheduler) : JobQueue := s.adapter.queue

/-- The scheduler with another queue. -/
def setQueue (s : Scheduler) (queue : JobQueue) : Scheduler :=
  { s with adapter := { s.adapter with queue := queue } }

/-- Asks for an optimisation. A forced one is postponed where others are dropped. -/
def queueTargetOptimization (s : Scheduler) (force : Bool) (now : Int) : Scheduler :=
  s.setQueue (s.queue.queueTargetOptimization force now).2

/-- Asks for a publication. -/
def queuePublication (s : Scheduler) (request : PublicationRequest) (now : Int) : Scheduler :=
  s.setQueue (s.queue.queuePublication request now).2

/-! ## Targets -/

/-- Whether a target is in force. -/
def hasTarget (s : Scheduler) (now : Int) : Bool := (s.state.targetInForce? now).isSome

/-- Takes over a newly agreed target and asks for an optimisation as soon as the
    compliance interval permits. -/
def acceptTarget (s : Scheduler) (target : PublicSchedule) (now : Int) : Scheduler :=
  (s.save ((s.state.pruneTargets now).2.addTarget target)).queueTargetOptimization true now

/-- Forgets targets that have ended; saved if there were any. -/
def pruneTargets (s : Scheduler) (now : Int) : Scheduler :=
  let (pruned, state) := s.state.pruneTargets now
  if pruned = 0 then { s with state := state } else s.save state

/-! ## Publications to come -/

/-- Window of the day-ahead publication that is due at the publication time after
    `now`: the next local day. -/
def dayAheadWindow (s : Scheduler) (now : Int) : PublicationRequest :=
  let start := Calendar.startOfNextDay s.config.zone now
  ⟨.initialSchedule, start, Calendar.startOfNextDay s.config.zone start⟩

/-- Queues every incomplete publication that still covers the future and counts
    them. -/
def retryIncomplete (s : Scheduler) (now : Int) : Nat × Scheduler :=
  let (requests, state) := s.state.retryable now
  (requests.length,
    requests.foldl (fun s request => s.queuePublication request now) (s.save state))

/-- Whether today's publication time has passed without the publication of
    `window`. -/
def isOverdue (s : Scheduler) (window : PublicationRequest) (now : Int) : Bool :=
  Calendar.startOfNextDay s.config.zone now
      ≤ Calendar.nextTimeOfDay s.config.zone now s.config.publicationTime
    && s.state.latestInitialPublication < window.stop

/-- Queues what is to be done after a start: an optimisation, the day-ahead
    publication if it is overdue, and incomplete publications. -/
def startup (s : Scheduler) (now : Int) : Scheduler :=
  let s := s.queueTargetOptimization false now
  let window := s.dayAheadWindow now
  let s := if s.isOverdue window now then s.queuePublication window now else s
  (s.retryIncomplete now).2

end Scheduler
end SiteDispatch
