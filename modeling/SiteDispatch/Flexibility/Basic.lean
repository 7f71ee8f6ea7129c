/-
  SiteDispatch.Flexibility.Basic

  The operating envelope a device offers: when a run may end, how long it may
  take, which power is admissible at each offset and how far the energy delivered
  so far may go.
-/

import SiteDispatch.Task

namespace SiteDispatch

/-- Offsets of both corridors are seconds since the start of the task. -/
structure Flexibility where
  id : Int
  /-- Id of the task planned in it, negative while there is none. -/
  taskId : Int
  adaptable : Bool
  /-- Admissible ends of the task, epoch seconds. -/
  stoppingTime : Interval
  /-- Admissible durations, seconds. -/
  runningTime : Interval
  /-- W -/
  powerCorridor : Corridor
  /-- Ws delivered since the start -/
  energyCorridor : Corridor
deriving DecidableEq, Inhabited

namespace Flexibility

/-- Whether no task has been assigned to the flexibility. -/
def isFree (f : Flexibility) : Bool := f.taskId < 0

/-- Earliest start that still lets a longest run end in time. -/
def earliestStart (f : Flexibility) : Int := f.stoppingTime.low - f.runningTime.high

/-- Latest start that still leaves the shortest running time. -/
def latestStart (f : Flexibility) : Int := f.stoppingTime.high - f.runningTime.low

/-- Linear interpolation between `a` and `b` at `elapsed` of `span` seconds,
    without the fraction. -/
def interpolate (elapsed span a b : Int) : Int :=
  let part := Float.ofInt elapsed / Float.ofInt span
  Quantity.truncate32 ((1.0 - part) * Float.ofInt a + part * Float.ofInt b)

/-- Bound on the energy delivered by `t`: the stored bound at a key,
    interpolated between two keys, flat after the last, none before the first. -/
def energyConstraint? (f : Flexibility) (t : Int) : Option Interval :=
  match f.energyCorridor.floorEntry? t with
  | none => none
  | some (before, lower) =>
    if before = t then some lower
    else match f.energyCorridor.higherEntry? t with
      | none => some lower
      | some (after, upper) =>
        let elapsed := Quantity.low32 (t - before)
        let span := Quantity.low32 (after - before)
        some ⟨interpolate elapsed span lower.low upper.low,
          interpolate elapsed span lower.high upper.high⟩

/-- Energy still available at `t` once `power` has run up to it. -/
def residualEnergy? (f : Flexibility) (power : PowerProfile) (t : Int) : Option Interval :=
  (f.energyConstraint? t).map fun bound =>
    let delivered := PowerProfile.integral power t
    ⟨bound.low - delivered, bound.high - delivered⟩

/-! ## The slack around a task -/

/-- Slack of power and energy at `t` and the later breakpoints of a profile that
    has delivered `delivered` Ws by `t`. -/
def slackAlong (f : Flexibility) (power : PowerProfile) (delivered : Int) :
    Int → List Int → List (Int × Interval × Interval)
  | t, later =>
    let value := PowerProfile.powerAt power t
    let powerSlack := ((f.powerCorridor.floorValue? t).getD Interval.zero).shifted (-value)
    let energySlack := ((f.energyConstraint? t).getD Interval.unbounded).shifted (-delivered)
    (t, powerSlack, energySlack) :: match later with
      | [] => []
      | next :: rest => slackAlong f power (delivered + value * (next - t)) next rest

/-- What a committed task leaves of the envelope, as an envelope whose corridors
    are relative to the task's own power and energy. -/
def residual (f : Flexibility) (task : Task) : Flexibility :=
  let slack := slackAlong f task.power 0 0
    (breakpoints (task.power.keys ++ f.powerCorridor.keys ++ f.energyCorridor.keys))
  { id := f.id
    taskId := task.id
    adaptable := f.adaptable
    stoppingTime := ⟨task.stop, task.stop⟩
    runningTime := ⟨task.runningTime, task.runningTime⟩
    powerCorridor := OrderedMap.ofList (slack.map fun s => (s.1, s.2.1))
    energyCorridor := OrderedMap.ofList (slack.map fun s => (s.1, s.2.2)) }

end Flexibility
end SiteDispatch
