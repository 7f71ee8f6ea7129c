/-
  SiteDispatch.Transport.Retrieval

  Fetches the schedules of several devices at once. What one device does not
  answer in time is left out and affects no other device.

  Devices are asked side by side in a limited number of lanes: the next one in the
  list begins as soon as a lane is free.
-/

import SiteDispatch.Transport.Basic

namespace SiteDispatch

variable {σ α : Type}

/-! ## One device -/

/-- The objects that come in answer to calls made at the same time, and the time
    until the last reply. -/
def fetchObjects (limit : Nat) (device : DeviceId) (call : Int → DeviceCall σ α) :
    List Int → σ → Except Halt ((List α × Nat) × σ)
  | [], s => .ok (([], 0), s)
  | id :: rest, s => do
    let (reply, s) ← call id s
    let reply := reply.within limit device
    let ((others, delay), s) ← fetchObjects limit device call rest s
    return ((reply.answer.toOption.toList ++ others, max reply.delay delay), s)

/-- The schedule of a device with every flexibility and task that it answers. -/
def fetchSchedule (source : ScheduleSource σ) (limit : Nat) (device : DeviceId)
    (start stop : Int) : DeviceCall σ ScheduleData := fun s => do
  let (reply, s) ← source.getSchedule device start stop s
  let reply := reply.within limit device
  match reply.answer with
  | .error e => return (⟨.error e, reply.delay⟩, s)
  | .ok summary =>
    let ((flexibilities, wait), s) ←
      fetchObjects limit device (source.getFlexibility device) summary.flexibilityIds s
    let ((tasks, wait'), s) ←
      fetchObjects limit device (source.getTask device) summary.taskIds s
    return (⟨.ok {
      device := summary.device
      start := summary.start
      stop := summary.stop
      tasks := tasks
      flexibilities := flexibilities
      constraints := summary.constraints }, reply.delay + wait + wait'⟩, s)

/-! ## Several devices -/

/-- The replies of all devices. -/
def fetchReplies (source : ScheduleSource σ) (limit : Nat) (start stop : Int) :
    List DeviceId → σ → Except Halt (List (DeviceId × Reply ScheduleData) × σ)
  | [], s => .ok ([], s)
  | device :: rest, s => do
    let (reply, s) ← fetchSchedule source limit device start stop s
    let (others, s) ← fetchReplies source limit start stop rest s
    return ((device, reply) :: others, s)

/-- The schedules among replies. -/
def Schedules.ofReplies (replies : List (DeviceId × Reply ScheduleData)) : Schedules :=
  OrderedMap.ofList (replies.filterMap fun (device, reply) =>
    reply.answer.toOption.map (device, ·))

/-- Puts a piece of work into the lane that is free first. A lane is the time at
    which it is free. -/
def occupyLane (lanes : List Nat) (duration : Nat) : List Nat :=
  match lanes.min? with
  | some free => (free + duration) :: lanes.erase free
  | none => [duration]

/-- Time until all pieces of work are done, begun in order in the given number of
    lanes, of which there is at least one. -/
def makespan (lanes : Nat) (durations : List Nat) : Nat :=
  let free := List.replicate (max 1 (min lanes durations.length)) 0
  ((durations.foldl occupyLane free).max?).getD 0

/-- What a retrieval brings and how many seconds it takes. -/
structure Retrieval where
  schedules : Schedules
  seconds : Nat

/-- Retrieves the schedules of devices for a window. -/
def retrieve (source : ScheduleSource σ) (limit lanes : Nat) (devices : List DeviceId)
    (start stop : Int) (s : σ) : Except Halt (Retrieval × σ) := do
  let (replies, s) ← fetchReplies source limit start stop devices s
  return (⟨Schedules.ofReplies replies, makespan lanes (replies.map (·.2.delay))⟩, s)

end SiteDispatch
