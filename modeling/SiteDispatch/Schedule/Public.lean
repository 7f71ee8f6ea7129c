/-
  SiteDispatch.Schedule.Public

  What the site agrees on with its counterparty: the net schedule per slot in Wh
  and the flexibility left around it.
-/

import SiteDispatch.Interval

namespace SiteDispatch

/-- Net site schedule in Wh per slot. Consumption is positive, production
    negative. -/
structure PublicSchedule where
  timestamp : Int
  startingTime : Int
  slotLength : Int
  consumption : List Int
  production : List Int
  flexibleConsumption : List Int
  flexibleProduction : List Int
deriving DecidableEq, Inhabited

namespace PublicSchedule

/-- A schedule of `slots` slots without any exchange. -/
def zero (timestamp startingTime slotLength : Int) (slots : Nat) : PublicSchedule where
  timestamp := timestamp
  startingTime := startingTime
  slotLength := slotLength
  consumption := List.replicate slots 0
  production := List.replicate slots 0
  flexibleConsumption := List.replicate slots 0
  flexibleProduction := List.replicate slots 0

/-- The number of slots. -/
def slots (s : PublicSchedule) : Nat := s.consumption.length

/-- First instant after the last slot. -/
def stop (s : PublicSchedule) : Int := s.startingTime + s.slotLength * s.slots

/-- Net exchange of slot `i`, summed over all four series. -/
def net? (s : PublicSchedule) (i : Nat) : Option Int :=
  if i < s.slots then
    some (Quantity.low32 (s.consumption.getD i 0 + s.production.getD i 0
      + s.flexibleConsumption.getD i 0 + s.flexibleProduction.getD i 0))
  else none

/-- Net exchange of a slot counted from the start; none outside the schedule. -/
def netAt? (s : PublicSchedule) (slot : Int) : Option Int :=
  if slot < 0 then none else s.net? slot.toNat

end PublicSchedule

/-- Flexibility of the site around its schedule, one entry per slot: power in W,
    energy at the end of the slot in Wh. -/
structure PublicFlexibility where
  timestamp : Int
  startingTime : Int
  slotLength : Int
  powerCorridor : List Interval
  energyCorridor : List Interval
deriving DecidableEq, Inhabited

end SiteDispatch
