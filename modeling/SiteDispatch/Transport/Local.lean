/-
  SiteDispatch.Transport.Local

  Reaches storage devices directly. Replies come at once.
-/

import SiteDispatch.Device.Storage
import SiteDispatch.Transport.Basic

namespace SiteDispatch

/-- The storage devices of a site, by name. -/
abbrev StorageDevices := OrderedMap DeviceId StorageDevice

namespace StorageDevices

/-- Devices by their own ids. -/
def ofList (devices : List StorageDevice) : StorageDevices :=
  OrderedMap.ofList (devices.map fun d => (d.id, d))

/-- Why a store did not answer, as told by its device. A computation that has no
    answer stops the call itself. -/
def remoteError (device : DeviceId) : StoreError → Except Halt TransportError
  | .halted halt => .error halt
  | e => .ok (.remote device e.message)

/-- Lets one device answer. -/
def ask {α : Type} (id : DeviceId) (request : StorageDevice → Except TransportError α ×
    StorageDevice) : DeviceCall StorageDevices α := fun devices =>
  match devices.get? id with
  | none => .ok (.immediate (.error (.unknownDevice id)), devices)
  | some device =>
    let (answer, device) := request device
    .ok (.immediate answer, devices.insert id device)

/-- Lets one device answer a request that its store may not be able to meet. -/
def askStore {α : Type} (id : DeviceId) (request : StorageDevice →
    Except StoreError (α × StorageDevice)) : DeviceCall StorageDevices α := fun devices =>
  match devices.get? id with
  | none => .ok (.immediate (.error (.unknownDevice id)), devices)
  | some device =>
    match request device with
    | .ok (answer, device) => .ok (.immediate (.ok answer), devices.insert id device)
    | .error e => do return (.immediate (.error (← remoteError id e)), devices)

/-- Calls made when the clock shows `now`. -/
def transport (now : Int) : Transport StorageDevices where
  getSchedule device start stop := askStore device fun d => d.getSchedule start stop now
  getFlexibility device id := ask device fun d =>
    (match d.store.flexibility? id with
      | some f => .ok f
      | none => .error (.notFound device .flexibility id), d)
  getTask device id := ask device fun d =>
    (match d.store.task? id with
      | some t => .ok t
      | none => .error (.notFound device .task id), d)
  schedule device id startingTime power := ask device fun d =>
    let (result, d) := d.schedule id startingTime power now
    (.ok result, d)
  adapt device id update := ask device fun d =>
    let (result, d) := d.adapt id update
    (.ok result, d)
  unschedule device id := ask device fun d =>
    let (result, d) := d.unschedule id now
    (.ok result, d)
  setTargetSoc device soc time := askStore device fun d => do
    return ((), ← d.setTargetSoc soc time now)

end StorageDevices
end SiteDispatch
