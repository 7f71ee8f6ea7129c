/-
  SiteDispatch.Scheduler.Event

  What the scheduler reacts to, and how it works off its queue.
-/

import SiteDispatch.Scheduler.Announcement
import SiteDispatch.Scheduler.Compliance

namespace SiteDispatch

/-- What the scheduler is told from outside. -/
inductive SchedulerEvent
  /-- A newly agreed target. -/
  | targetSchedule (target : PublicSchedule)
  | monitoring (data : MonitoringData)
  /-- A device changed its committed schedule by itself. -/
  | flexibilitiesChanged (device : DeviceId)
  /-- A storage device is to reach `soc` percent by `time`. -/
  | targetBatteryCharge (device : DeviceId) (soc time : Int)

namespace SchedulerRun

variable {σ : Type}

/-- Changes the scheduler. -/
def onScheduler (r : SchedulerRun σ) (f : Scheduler → Scheduler) : SchedulerRun σ :=
  { r with scheduler := f r.scheduler }

/-- Sends corrections to the devices and settles their answers. -/
def confirmAll (t : Transport σ) (now : Int) :
    List Confirmation → Adapter → σ → Except Halt (Adapter × σ)
  | [], a, s => .ok (a, s)
  | c :: rest, a, s => do
    let (reply, s) ← t.adapt c.key.device c.key.flexibilityId c.update s
    confirmAll t now rest (a.settle c reply.answer now) s

/-- Corrects running tasks by a measurement and waits for the devices. -/
def correct (env : Surroundings σ) (data : MonitoringData) (r : SchedulerRun σ) :
    Except Halt (SchedulerRun σ) := do
  let s := r.scheduler
  let (round, adapter) ← s.adapter.adapt data env.now s.config.adaptationHorizon
  let (adapter, devices) ← confirmAll env.transport env.now round.confirmations adapter r.devices
  return { r with scheduler := { s with adapter := adapter }, devices := devices }

/-- Reacts to an event. -/
def handle (env : Surroundings σ) (event : SchedulerEvent) (r : SchedulerRun σ) :
    Except Halt (SchedulerRun σ) :=
  match event with
  | .targetSchedule target => .ok (r.onScheduler (·.acceptTarget target env.now))
  | .monitoring data => r.correct env data
  | .flexibilitiesChanged _ => .ok (r.onScheduler (·.queueTargetOptimization false env.now))
  | .targetBatteryCharge device soc time => do
    let (reply, devices) ← env.transport.setTargetSoc device soc time r.devices
    let r := { r with devices := devices }
    match reply.answer with
    | .ok () => return r.onScheduler (·.queueTargetOptimization false env.now)
    | .error _ => return r

/-- Runs a job. What fails is left to later jobs. -/
def runJob (env : Surroundings σ) (job : Job) (r : SchedulerRun σ) :
    Except Halt (SchedulerRun σ) :=
  match job with
  | .optimizeTargetCompliance => (·.2) <$> r.optimize env
  | .publish request => (·.2) <$> r.publish env request

/-- Takes the jobs that are due one after the other, at most `most` of them, and
    runs each before the next is taken. -/
def runDue (env : Surroundings σ) : Nat → SchedulerRun σ → Except Halt (List Job × SchedulerRun σ)
  | 0, r => .ok ([], r)
  | most + 1, r =>
    match r.scheduler.queue.takeDue env.now with
    | (none, _) => .ok ([], r)
    | (some job, queue) => do
      let r ← (r.onScheduler (·.setQueue queue)).runJob env job
      let (jobs, r) ← runDue env most r
      return (job :: jobs, r)

end SchedulerRun
end SiteDispatch
