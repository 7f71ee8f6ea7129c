/-
  SiteDispatch.Transport.Basic

  The contract between the scheduler and the devices. A call is answered with a
  value or an error, possibly after some time; the devices behind it may change.
-/

import SiteDispatch.Halt
import SiteDispatch.Schedule.Device

namespace SiteDispatch

/-- Kinds of objects a device is asked for. -/
inductive DeviceObject
  | task
  | flexibility
deriving DecidableEq, Repr

/-- The word for what was asked for. -/
def DeviceObject.name : DeviceObject → String
  | task => "task"
  | flexibility => "flexibility"

/-- Why a call to a device has no value. -/
inductive TransportError
  | unknownDevice (device : DeviceId)
  | timeout (device : DeviceId) (seconds : Int)
  | notFound (device : DeviceId) (what : DeviceObject) (id : Int)
  | remote (device : DeviceId) (reason : String)
deriving DecidableEq

/-- The short name of an error. -/
def TransportError.name : TransportError → String
  | unknownDevice .. => "UnknownDevice"
  | timeout .. => "Timeout"
  | notFound .. => "NotFound"
  | remote .. => "Remote"

/-- An error in words. -/
def TransportError.message : TransportError → String
  | unknownDevice device => s!"device {device.text} is not reachable"
  | timeout device seconds => s!"device {device.text} did not answer within {seconds}s"
  | notFound device what id => s!"device {device.text} has no {what.name} {id}"
  | remote device reason => s!"device {device.text} failed: {reason}"

/-- What a call comes back with, and after how many seconds. -/
structure Reply (α : Type) where
  answer : Except TransportError α
  delay : Nat

namespace Reply

variable {α : Type}

/-- A reply that comes at once. -/
def immediate (answer : Except TransportError α) : Reply α := ⟨answer, 0⟩

/-- A reply that is not waited for any longer than `limit` seconds. -/
def within (limit : Nat) (device : DeviceId) (reply : Reply α) : Reply α :=
  if limit < reply.delay then ⟨.error (.timeout device limit), limit⟩ else reply

end Reply

/-- A call to devices in a state `σ`. -/
abbrev DeviceCall (σ α : Type) := σ → Except Halt (Reply α × σ)

/-- Devices that can be asked for their schedules. -/
structure ScheduleSource (σ : Type) where
  getSchedule (device : DeviceId) (start stop : Int) : DeviceCall σ ScheduleSummary
  getFlexibility (device : DeviceId) (id : Int) : DeviceCall σ Flexibility
  getTask (device : DeviceId) (id : Int) : DeviceCall σ Task

/-- Devices that can be told what to do as well. -/
structure Transport (σ : Type) extends ScheduleSource σ where
  schedule (device : DeviceId) (id startingTime : Int) (power : PowerProfile) :
    DeviceCall σ SchedulingResult
  adapt (device : DeviceId) (id : Int) (update : PowerProfile) : DeviceCall σ SchedulingResult
  unschedule (device : DeviceId) (id : Int) : DeviceCall σ SchedulingResult
  /-- Asks for a state of charge of `soc` percent by `time`. -/
  setTargetSoc (device : DeviceId) (soc time : Int) : DeviceCall σ Unit

end SiteDispatch
