/-
  SiteDispatch.Queue.Worker

  The worker that runs the jobs of a queue, one at a time. It takes a job whenever
  one is due, otherwise it sleeps until the earliest pending job becomes eligible
  or a new one is queued.

  Time is counted in milliseconds since the worker was started; the clock of the
  queue shows whole seconds.
-/

import SiteDispatch.Queue.Basic

namespace SiteDispatch

/-- What the worker is doing. -/
inductive WorkerPhase
  /-- Runs a job that ends at the given time. -/
  | running (ends : Int)
  /-- Sleeps until the given time. -/
  | sleeping (wakes : Int)
  /-- Waits for a job to be queued. -/
  | waiting
deriving DecidableEq

/-- A worker and the queue it works off. -/
structure QueueWorker where
  /-- What the clock showed when the worker was started. -/
  epoch : Int
  /-- Seconds that a job takes; a millisecond is added to them. -/
  jobSeconds : Nat
  queue : JobQueue
  phase : WorkerPhase
deriving DecidableEq

/-- A job and what the clock showed when it was started. -/
structure JobStart where
  clock : Int
  job : Job
deriving DecidableEq

namespace QueueWorker

/-- What the clock shows at `time`. -/
def clockAt (w : QueueWorker) (time : Int) : Int := w.epoch + time / 1000

/-- When the worker looks at its queue next. -/
def nextLook? (w : QueueWorker) : Option Int :=
  match w.phase with
  | .running ends => some ends
  | .sleeping wakes => some wakes
  | .waiting => none

/-- What an idle worker does from `time` on when the earliest pending job becomes
    eligible at `wake`. -/
def idle (w : QueueWorker) (time : Int) : Option Int → WorkerPhase
  | some wake => .sleeping (time + max (wake - w.clockAt time) 1 * 1000)
  | none => .waiting

/-- The worker looks at its queue: it starts the job that is due, if any. -/
def look (w : QueueWorker) (time : Int) : Option JobStart × QueueWorker :=
  match w.queue.takeDue (w.clockAt time) with
  | (some job, queue) =>
    (some ⟨w.clockAt time, job⟩,
      { w with queue := queue, phase := .running (time + w.jobSeconds * 1000 + 1) })
  | (none, queue) => (none, { w with queue := queue, phase := w.idle time queue.nextWake? })

/-- The next look comes later. -/
theorem lt_nextLook?_look {w : QueueWorker} {time next : Int}
    (h : (w.look time).2.nextLook? = some next) : time < next := by
  unfold look at h
  generalize w.queue.takeDue (w.clockAt time) = taken at h
  obtain ⟨_ | job, queue⟩ := taken
  · cases hw : queue.nextWake? <;> simp only [hw, idle, nextLook?] at h
    · cases h
    · cases h; omega
  · simp only [nextLook?] at h
    cases h; omega

/-- The jobs started from a look at `time` on and before `stop`, and the worker at
    `stop`. -/
def workFrom (w : QueueWorker) (time stop : Int) : List JobStart × QueueWorker :=
  if time < stop then
    let seen := w.look time
    match _ : seen.2.nextLook? with
    | none => (seen.1.toList, seen.2)
    | some next =>
      let (later, w) := seen.2.workFrom next stop
      (seen.1.toList ++ later, w)
  else ([], w)
termination_by (stop - time).toNat
decreasing_by
  rename_i h
  have := lt_nextLook?_look h
  omega

/-- The jobs started before `stop`, and the worker at `stop`. -/
def work (w : QueueWorker) (stop : Int) : List JobStart × QueueWorker :=
  match w.nextLook? with
  | some time => w.workFrom time stop
  | none => ([], w)

/-- A change to the queue at `time`. If it queued a job, a worker that is not
    running one wakes up. -/
def update (w : QueueWorker) (time : Int) (change : JobQueue → Int → Bool × JobQueue) :
    Bool × QueueWorker :=
  let (queued, queue) := change w.queue (w.clockAt time)
  let phase := match queued, w.phase with
    | false, phase => phase
    | true, .running ends => .running ends
    | true, _ => .sleeping time
  (queued, { w with queue := queue, phase := phase })

/-- A worker that has just been started on an empty queue. -/
def started (epoch complianceInterval updateInterval : Int) (jobSeconds : Nat) : QueueWorker :=
  ⟨epoch, jobSeconds, JobQueue.empty complianceInterval updateInterval, .waiting⟩

end QueueWorker
end SiteDispatch
