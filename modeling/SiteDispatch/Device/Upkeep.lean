/-
  SiteDispatch.Device.Upkeep

  What a device does to its schedule by itself: it sets charging or discharging
  that would leave its energy limits to 0 W, forgets what is over, and follows a
  requested state of charge.
-/

import SiteDispatch.Device.State
import SiteDispatch.Halt

namespace SiteDispatch
namespace DeviceState

/-! ## Repair -/

/-- Sets the power of the task that covers `time` to 0 W from there on. -/
def restTaskAt (tasks : OrderedMap Int Task) (time : Int) : OrderedMap Int Task :=
  match tasks.values.find? (covers time false) with
  | none => tasks
  | some found => tasks.modify found.id fun task =>
      { task with power := task.power.insert (Quantity.low32 (time - task.startingTime)) 0 }

/-- A repair under way. -/
structure Repair where
  timeline : PowerTimeline
  tasks : OrderedMap Int Task
  /-- Wh -/
  stored : Int
  /-- First repaired instant, 0 if there is none. -/
  first : Int
deriving DecidableEq

/-- Whether charging ends above the upper or discharging below the lower limit. -/
def leavesLimits (low high power stored : Int) : Bool :=
  (high < stored && 0 < power) || (stored < low && power < 0)

/-- Follows the timeline from `time` through the later breakpoints. A stretch that
    would leave the limits is set to 0 W. -/
def repairAlong (low high : Int) : Int → List Int → Repair → Repair
  | _, [], r => r
  | time, next :: later, r =>
    let power := PowerProfile.powerAt r.timeline time
    let stored := r.stored + Quantity.wattHours ((next - time) * power)
    if leavesLimits low high power stored then
      repairAlong low high next later
        { timeline := r.timeline.insert time 0
          tasks := restTaskAt r.tasks time
          stored := r.stored
          first := if r.first = 0 then time else r.first }
    else repairAlong low high next later { r with stored := stored }

/-- Repairs the timeline and the tasks from `now` on, `stored` Wh being held.
    Answers the first repaired instant, 0 if nothing was repaired. -/
def repair (s : DeviceState) (now stored low high : Int) : Int × DeviceState :=
  let later := s.scheduledPower.keys.filter (fun k => now < k)
  let done := repairAlong low high now later ⟨s.scheduledPower, s.tasks, stored, 0⟩
  let tasks := match done.tasks.values.find? (covers now false) with
    | none => done.tasks
    | some found => done.tasks.modify found.id Task.compress
  (done.first, { s with tasks := tasks, scheduledPower := done.timeline })

/-! ## Pruning -/

/-- Age in seconds after which setpoints are forgotten. -/
def timelineRetention : Int := 86400

/-- Forgets finished tasks with their flexibilities, free flexibilities that can
    no longer be used, and setpoints older than a day except the one in force.
    Answers the number of finished tasks. -/
def prune (s : DeviceState) (now : Int) : Nat × DeviceState :=
  let expired := s.tasks.values.filter (fun t => t.stop < now)
  let tasks := expired.foldl (fun left t => left.erase t.id) s.tasks
  let flexibilities := expired.foldl (fun left t => left.erase t.flexibilityId) s.flexibilities
  let inForce := (s.scheduledPower.floorEntry? now).map (·.1)
  (expired.length,
    { s with
      tasks := tasks
      flexibilities := flexibilities.filter fun _ f => !(f.isFree && f.stoppingTime.high < now)
      scheduledPower := s.scheduledPower.filter fun k _ =>
        now ≤ k + timelineRetention || some k = inForce })

/-! ## Charge targets -/

/-- The multiple of `step` next to `x`, away from zero. -/
def roundAwayFromZero (x step : Int) : Int :=
  if 0 < x then (x + step - 1).tdiv step * step
  else if x < 0 then -((-x + step - 1).tdiv step * step)
  else 0

/-- Energy in Ws between two states of charge in percent, without the fraction. -/
def energyChange (soc : Int) (current : Float) (nominalCapacity : Int) : Int :=
  Quantity.truncate64 ((Float.ofInt soc - current) * Float.ofInt nominalCapacity * 36.0)

/-- Replaces the timeline in `[now, time)` by a constant power that brings `change`
    Ws, as far as the limits allow, followed by rest. -/
def driveTo (s : DeviceState) (change time now : Int) (c : DeviceConfig) :
    Except Halt DeviceState := do
  let average := change.tdiv (time - now)
  let power ← Halt.clamp (-c.maxDischarge) c.maxCharge (roundAwayFromZero average 100)
  let driven := (PowerTimeline.clear s.scheduledPower now time).insert now power
  let magnitude : Int := power.natAbs
  let needed := (change.natAbs + magnitude - 1).tdiv magnitude
  let rested :=
    if power ≠ 0 ∧ now + needed < time then driven.insert (now + needed) 0 else driven
  return { s with scheduledPower := rested.insertNew time 0 }

/-- Notes a requested state of charge and drives the device towards it. -/
def applyTargetSoc (s : DeviceState) (soc time now : Int) (current : Float) (c : DeviceConfig) :
    Except Halt DeviceState :=
  let noted := { s with targetSoc := soc, targetSocTime := time }
  if time ≤ now then .ok noted
  else noted.driveTo (energyChange soc current c.nominalCapacity) time now c

end DeviceState
end SiteDispatch
