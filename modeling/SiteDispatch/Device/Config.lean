/-
  SiteDispatch.Device.Config

  What is configured for a storage device: its capacity, the share of it that
  may be used, its power limits and the energy kept in reserve on either side.
-/

import SiteDispatch.Device.Id
import SiteDispatch.Interval

namespace SiteDispatch

/-- Configuration of a storage device. -/
structure DeviceConfig where
  device : DeviceId
  /-- Wh -/
  nominalCapacity : Int
  /-- percent -/
  minStateOfCharge : Int
  /-- percent -/
  maxStateOfCharge : Int
  /-- W -/
  maxCharge : Int
  /-- W -/
  maxDischarge : Int
  /-- Wh -/
  energyBuffer : Int
deriving DecidableEq, Inhabited

namespace DeviceConfig

/-- Least energy the device should hold, Wh. -/
def minEnergy (c : DeviceConfig) : Int := (c.minStateOfCharge * c.nominalCapacity).tdiv 100

/-- Most energy the device should hold, Wh. -/
def maxEnergy (c : DeviceConfig) : Int := (c.maxStateOfCharge * c.nominalCapacity).tdiv 100

/-- Power the device can take, discharging counted negative. A limit of the narrow range can
    be negated in it unless it is the least one, which no device has. -/
def powerRange (c : DeviceConfig) : Interval := ⟨-c.maxDischarge, c.maxCharge⟩

/-- Energy in Ws that may still leave (negative) or enter a device that holds
    `stored` Wh. Always contains 0. -/
def energyWindow (c : DeviceConfig) (stored : Int) : Interval :=
  let available := stored - c.minEnergy - c.energyBuffer
  let free := c.maxEnergy - stored - c.energyBuffer
  ⟨Quantity.saturate (min (-available * 3600) 0), Quantity.saturate (max (free * 3600) 0)⟩

end DeviceConfig
end SiteDispatch
