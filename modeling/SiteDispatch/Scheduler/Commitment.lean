/-
  SiteDispatch.Scheduler.Commitment

  Sends the tasks of a plan to the devices. A task that has not started is
  scheduled, a running adaptable one is adapted. Adaptable tasks that a device
  takes are noted for real-time correction; a device that does not answer leads to
  another optimisation.
-/

import SiteDispatch.Scheduler.Run

namespace SiteDispatch

/-- A task that was sent to a device, and the device's answer. -/
structure Commitment where
  device : DeviceId
  task : Task
  answer : Except TransportError SchedulingResult

variable {σ : Type}

/-- The call that commits a task at `now`; none for a task that has started and
    cannot be adapted. -/
def Transport.commitCall? (t : Transport σ) (device : DeviceId) (task : Task) (now : Int) :
    Option (DeviceCall σ SchedulingResult) :=
  if now + 1 < task.startingTime then
    some (t.schedule device task.flexibilityId task.startingTime task.power)
  else if task.adaptable then some (t.adapt device task.flexibilityId task.power)
  else none

/-- Draws the consequences of a device's answer. -/
def Adapter.note (a : Adapter) (schedules : Schedules) (c : Commitment) (now : Int) : Adapter :=
  match c.answer with
  | .error _ => a.requestOptimization now
  | .ok .ok =>
    if c.task.adaptable then
      match (schedules.get? c.device).bind (·.flexibility? c.task.flexibilityId) with
      | some f => { a with index := a.index.record c.device c.task f }
      | none => a
    else a
  | .ok _ => a

/-- Commits tasks one after the other. -/
def commitTasks (t : Transport σ) (schedules : Schedules) (now : Int) :
    List (DeviceId × Task) → Adapter → σ → Except Halt (List Commitment × Adapter × σ)
  | [], a, s => .ok ([], a, s)
  | (device, task) :: rest, a, s =>
    match t.commitCall? device task now with
    | none => commitTasks t schedules now rest a s
    | some call => do
      let (reply, s) ← call s
      let commitment : Commitment := ⟨device, task, reply.answer⟩
      let (others, a, s) ← commitTasks t schedules now rest (a.note schedules commitment now) s
      return (commitment :: others, a, s)

/-- The tasks of a plan in order of device and plan. -/
def TaskPlan.toList (plan : TaskPlan) : List (DeviceId × Task) :=
  plan.entries.flatMap fun (device, tasks) => tasks.map (device, ·)

/-- Commits a plan made from `schedules`. -/
def SchedulerRun.commit (env : Surroundings σ) (plan : TaskPlan) (schedules : Schedules)
    (r : SchedulerRun σ) : Except Halt (List Commitment × SchedulerRun σ) := do
  let adapter := r.scheduler.adapter
  let pruned := { adapter with index := (AdaptableIndex.prune adapter.index env.now).2 }
  let (commitments, adapter, devices) ←
    commitTasks env.transport schedules env.now plan.toList pruned r.devices
  return (commitments,
    { r with scheduler := { r.scheduler with adapter := adapter }, devices := devices })

end SiteDispatch
