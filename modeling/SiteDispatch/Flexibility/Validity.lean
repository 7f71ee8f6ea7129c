/-
  SiteDispatch.Flexibility.Validity

  The one gate for every profile a device accepts: it starts at offset 0, ends
  with 0 W, is not too long, ends in time, and stays inside both corridors.

  Both corridors are checked breakpoint by breakpoint: between two breakpoints
  the power is constant and the energy grows linearly.
-/

import SiteDispatch.Flexibility.Basic

namespace SiteDispatch

/-- Why a power profile does not fit a flexibility. -/
inductive ValidityError
  | missingStart
  | openEnd (watts : Int)
  | tooLong (stop limit : Int)
  | stoppingTime (stop earliest latest : Int)
  | missingCorridor (offset : Int)
  | power (offset watts : Int) (bound : Interval)
  | energy (offset wattSeconds : Int) (bound : Interval)
deriving DecidableEq

namespace ValidityError

/-- The short name of an error. -/
def name : ValidityError → String
  | missingStart => "MissingStart"
  | openEnd .. => "OpenEnd"
  | tooLong .. => "TooLong"
  | stoppingTime .. => "StoppingTime"
  | missingCorridor .. => "MissingCorridor"
  | power .. => "Power"
  | energy .. => "Energy"

/-- An error in words. -/
def message : ValidityError → String
  | missingStart => "profile has no value at offset 0"
  | openEnd watts => s!"profile must end with 0 W, found {watts} W"
  | tooLong stop limit => s!"profile ends at {stop}s, maximum running time is {limit}s"
  | stoppingTime stop earliest latest => s!"stopping time {stop} outside [{earliest}, {latest}]"
  | missingCorridor offset => s!"no corridor in force at offset {offset}s"
  | power offset watts bound =>
    s!"{watts} W at offset {offset}s outside power corridor {bound.text}"
  | energy offset wattSeconds bound =>
    s!"{wattSeconds} Ws at offset {offset}s outside energy corridor {bound.text}"

end ValidityError

namespace Flexibility

/-- Checks the power in force at `t` and at all but the last of the `later`
    breakpoints: nothing runs after the last one. -/
def checkPowerAlong (f : Flexibility) (power : PowerProfile) :
    Int → List Int → Except ValidityError Unit
  | _, [] => .ok ()
  | t, next :: later =>
    match f.powerCorridor.floorValue? t with
    | none => .error (.missingCorridor t)
    | some bound =>
      let value := PowerProfile.powerAt power t
      if bound.contains value then checkPowerAlong f power next later
      else .error (.power t value bound)

/-- Checks the energy delivered by each of the `later` breakpoints, `delivered`
    Ws having been delivered by `t`. -/
def checkEnergyAlong (f : Flexibility) (power : PowerProfile) (delivered : Int) :
    Int → List Int → Except ValidityError Unit
  | _, [] => .ok ()
  | t, next :: later =>
    let total := delivered + PowerProfile.powerAt power t * (next - t)
    match f.energyConstraint? next with
    | none => .error (.missingCorridor next)
    | some bound =>
      if bound.contains total then checkEnergyAlong f power total next later
      else .error (.energy next total bound)

/-- Checks the power at every breakpoint of profile and corridor. -/
def checkPower (f : Flexibility) (power : PowerProfile) : Except ValidityError Unit :=
  checkPowerAlong f power 0 (breakpoints (power.keys ++ f.powerCorridor.keys))

/-- Checks the energy drawn so far at every breakpoint of profile and corridor. -/
def checkEnergy (f : Flexibility) (power : PowerProfile) : Except ValidityError Unit :=
  checkEnergyAlong f power 0 0 (breakpoints (power.keys ++ f.energyCorridor.keys))

/-- Accepts `power`, started at `startingTime`, or names the first fault found. -/
def validate (f : Flexibility) (startingTime : Int) (power : PowerProfile) :
    Except ValidityError Unit :=
  match power.contains 0, power.lastEntry? with
  | false, _ => .error .missingStart
  | true, none => .error .missingStart
  | true, some (length, last) =>
    let stop := startingTime + length
    if last ≠ 0 then .error (.openEnd last)
    else if f.runningTime.high < length then .error (.tooLong length f.runningTime.high)
    else if !f.stoppingTime.contains stop then
      .error (.stoppingTime stop f.stoppingTime.low f.stoppingTime.high)
    else match f.checkPower power with
      | .error e => .error e
      | .ok () => f.checkEnergy power

/-- Whether `validate` accepts. -/
def accepts (f : Flexibility) (startingTime : Int) (power : PowerProfile) : Bool :=
  match f.validate startingTime power with
  | .ok _ => true
  | .error _ => false

end Flexibility
end SiteDispatch
