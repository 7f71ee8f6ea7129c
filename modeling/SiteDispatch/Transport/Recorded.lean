/-
  SiteDispatch.Transport.Recorded

  Devices whose replies are known beforehand. They never change, so asking them
  again gives the same replies.
-/

import SiteDispatch.Transport.Basic

namespace SiteDispatch

/-- The replies of one device. -/
structure RecordedDevice where
  schedule : Reply ScheduleSummary
  flexibilities : OrderedMap Int (Reply Flexibility)
  tasks : OrderedMap Int (Reply Task)

/-- Recorded devices, by name. -/
abbrev RecordedDevices := OrderedMap DeviceId RecordedDevice

namespace RecordedDevices

/-- The reply of a device; one that is not there is not reachable. -/
def ask {α : Type} (device : DeviceId) (reply : RecordedDevice → Reply α) :
    DeviceCall RecordedDevices α := fun devices =>
  match devices.get? device with
  | some recorded => .ok (reply recorded, devices)
  | none => .ok (.immediate (.error (.unknownDevice device)), devices)

/-- Answers with the recorded replies; what was not recorded is not found. -/
def source : ScheduleSource RecordedDevices where
  getSchedule device _ _ := ask device (·.schedule)
  getFlexibility device id := ask device fun recorded =>
    (recorded.flexibilities.get? id).getD (.immediate (.error (.notFound device .flexibility id)))
  getTask device id := ask device fun recorded =>
    (recorded.tasks.get? id).getD (.immediate (.error (.notFound device .task id)))

end RecordedDevices
end SiteDispatch
