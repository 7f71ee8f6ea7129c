/-
  SiteDispatch.Device.Store

  A device's schedule together with the file that keeps it. Requests read the
  stored energy from the battery, which may fail; every change is saved, whether
  or not the file takes it.
-/

import SiteDispatch.Battery
import SiteDispatch.Device.Commit
import SiteDispatch.Device.Offer
import SiteDispatch.Device.Upkeep
import SiteDispatch.Snapshot.File

namespace SiteDispatch

/-- What a snapshot file of a device holds: a state, or something that cannot be
    understood. -/
abbrev DeviceFile := SnapshotFile (Option DeviceState)

/-- The schedule of a device with its configuration and the file that keeps it. -/
structure DeviceStore where
  config : DeviceConfig
  zone : Zone
  state : DeviceState
  file : DeviceFile
  /-- Whether the medium takes writes. -/
  writable : Bool

/-- Something the store tells others about. -/
inductive StoreEvent
  /-- The store itself changed the committed power from `start` on. -/
  | scheduleChanged (device : DeviceId) (start : Int)
deriving DecidableEq

/-- State of charge of the battery in percent, or why it cannot be read. -/
abbrev ChargeReading := Except String Float

namespace DeviceStore

/-- Restores the state from a file. -/
def restore (config : DeviceConfig) (zone : Zone) (file : DeviceFile) (writable : Bool) :
    DeviceStore :=
  let (state, _, file) := file.reopened.load id DeviceState.fresh
  ⟨config, zone, state, file, writable⟩

/-- The store as it comes up again on the same file. -/
def restart (s : DeviceStore) : DeviceStore := restore s.config s.zone s.file s.writable

/-- State of charge and stored energy in Wh. -/
def stored (s : DeviceStore) (charge : ChargeReading) : Except StoreError (Float × Int) :=
  match charge with
  | .ok soc => .ok (soc, Battery.storedEnergy soc s.config.nominalCapacity)
  | .error reason => .error (.storage reason)

/-- Takes over a new state and saves it. -/
def save (s : DeviceStore) (state : DeviceState) : DeviceStore :=
  { s with state := state, file := s.file.save (some state) s.writable }

/-- What the file holds, if it can be understood. -/
def saved? (s : DeviceStore) : Option DeviceState := s.file.content.bind id

/-! ## Requests -/

/-- Offers what is missing of the window and lists what is in it, then saves. -/
def getSchedule (s : DeviceStore) (charge : ChargeReading) (start stop now : Int) :
    Except StoreError (ScheduleSummary × DeviceStore) := do
  let (_, wattHours) ← s.stored charge
  let (summary, state) ←
    s.state.getSchedule s.config.device start stop now wattHours s.zone s.config
  return (summary, s.save state)

/-- The flexibility of an id. -/
def flexibility? (s : DeviceStore) (id : Int) : Option Flexibility := s.state.flexibilities.get? id

/-- The task of an id. -/
def task? (s : DeviceStore) (id : Int) : Option Task := s.state.tasks.get? id

/-- Energy expected in the battery at `time`, Wh. -/
def expectedEnergy (s : DeviceStore) (charge : ChargeReading) (time now : Int) :
    Except StoreError Int := do
  let (_, wattHours) ← s.stored charge
  return s.state.expectedEnergy now time wattHours

/-- Saves the state a change has led to if it was accepted. -/
def settle (s : DeviceStore) (change : SchedulingResult × DeviceState) :
    SchedulingResult × DeviceStore :=
  if change.1.isOk then (change.1, s.save change.2) else (change.1, s)

/-- Plans a task that has not started. -/
def schedule (s : DeviceStore) (id startingTime : Int) (power : PowerProfile) (now : Int) :
    SchedulingResult × DeviceStore :=
  s.settle (s.state.schedule id startingTime power now)

/-- Corrects an adaptable task. -/
def adapt (s : DeviceStore) (id : Int) (update : PowerProfile) : SchedulingResult × DeviceStore :=
  s.settle (s.state.adapt id update)

/-- Returns a task that has not started to rest. -/
def unschedule (s : DeviceStore) (id now : Int) : SchedulingResult × DeviceStore :=
  s.settle (s.state.unschedule id now)

/-- Repairs the timeline against energy limits; saved if something was repaired. -/
def repair (s : DeviceStore) (stored low high now : Int) : Int × DeviceStore :=
  let (first, state) := s.state.repair now stored low high
  (first, if first = 0 then { s with state := state } else s.save state)

/-- Drives the device to `soc` percent by `time`; nothing is offered until then. -/
def setTargetSoc (s : DeviceStore) (charge : ChargeReading) (soc time now : Int) :
    Except StoreError DeviceStore := do
  let (current, _) ← s.stored charge
  match s.state.applyTargetSoc soc time now current s.config with
  | .error halt => .error (.halted halt)
  | .ok state => .ok (s.save state)

/-! ## Maintenance -/

/-- One pass: prunes, then follows an active charge target or repairs the timeline
    against the limits of the device. -/
def maintain (s : DeviceStore) (charge : ChargeReading) (now : Int) :
    Except StoreError (List StoreEvent × DeviceStore) := do
  let (current, wattHours) ← s.stored charge
  let (pruned, state) := s.state.prune now
  if state.socTargetActive now then
    match state.applyTargetSoc state.targetSoc state.targetSocTime now current s.config with
    | .error halt => .error (.halted halt)
    | .ok state => .ok ([], s.save state)
  else
    let (first, state) := state.repair now wattHours s.config.minEnergy s.config.maxEnergy
    let store := if pruned = 0 ∧ first = 0 then { s with state := state } else s.save state
    return (if first = 0 then [] else [.scheduleChanged s.config.device first], store)

end DeviceStore
end SiteDispatch
