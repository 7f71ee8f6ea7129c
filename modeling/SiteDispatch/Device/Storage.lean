/-
  SiteDispatch.Device.Storage

  A storage device: a battery and the store of its schedule. The store may be
  unable to read the battery; the battery itself goes on working.
-/

import SiteDispatch.Device.Store

namespace SiteDispatch

/-- A store with the battery it plans for. -/
structure StorageDevice where
  store : DeviceStore
  battery : Battery
  /-- Why the store cannot read the battery. -/
  fault : Option String

namespace StorageDevice

/-- The name of the device. -/
def id (d : StorageDevice) : DeviceId := d.store.config.device

/-- What the store reads from the battery. -/
def reading (d : StorageDevice) : ChargeReading :=
  match d.fault with
  | some reason => .error reason
  | none => .ok d.battery.charge

/-- Sets the state of charge, if one is given, and what keeps the store from
    reading it. -/
def tamper (d : StorageDevice) (charge : Option Float) (fault : Option String) : StorageDevice :=
  { d with
    battery := match charge with
      | some charge => d.battery.setCharge charge
      | none => d.battery
    fault := fault }

/-- Runs the battery at `watts` for `seconds`. -/
def run (d : StorageDevice) (watts seconds : Float) : Except Halt StorageDevice := do
  return { d with battery := ← d.battery.run watts seconds }

/-- The device after its store has been built anew on the same file. -/
def restart (d : StorageDevice) : StorageDevice := { d with store := d.store.restart }

/-! ## Requests to the store -/

/-- Offers what is missing of the window and lists what is in it. -/
def getSchedule (d : StorageDevice) (start stop now : Int) :
    Except StoreError (ScheduleSummary × StorageDevice) := do
  let (summary, store) ← d.store.getSchedule d.reading start stop now
  return (summary, { d with store := store })

/-- Energy expected in the battery at `time`, Wh. -/
def expectedEnergy (d : StorageDevice) (time now : Int) : Except StoreError Int :=
  d.store.expectedEnergy d.reading time now

/-- Plans a task that has not started. -/
def schedule (d : StorageDevice) (id startingTime : Int) (power : PowerProfile) (now : Int) :
    SchedulingResult × StorageDevice :=
  let (result, store) := d.store.schedule id startingTime power now
  (result, { d with store := store })

/-- Corrects an adaptable task. -/
def adapt (d : StorageDevice) (id : Int) (update : PowerProfile) :
    SchedulingResult × StorageDevice :=
  let (result, store) := d.store.adapt id update
  (result, { d with store := store })

/-- Returns a task that has not started to rest. -/
def unschedule (d : StorageDevice) (id now : Int) : SchedulingResult × StorageDevice :=
  let (result, store) := d.store.unschedule id now
  (result, { d with store := store })

/-- Repairs the timeline against energy limits and tells when the first repair takes effect. -/
def repair (d : StorageDevice) (stored low high now : Int) : Int × StorageDevice :=
  let (first, store) := d.store.repair stored low high now
  (first, { d with store := store })

/-- Asks for a state of charge at `time`. -/
def setTargetSoc (d : StorageDevice) (soc time now : Int) : Except StoreError StorageDevice := do
  return { d with store := ← d.store.setTargetSoc d.reading soc time now }

/-- One pass of the upkeep the device does by itself. -/
def maintain (d : StorageDevice) (now : Int) :
    Except StoreError (List StoreEvent × StorageDevice) := do
  let (events, store) ← d.store.maintain d.reading now
  return (events, { d with store := store })

end StorageDevice
end SiteDispatch
