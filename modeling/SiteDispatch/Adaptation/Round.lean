/-
  SiteDispatch.Adaptation.Round

  Correction of running adaptable tasks by the measured deviation of the site. The
  deviation is shared evenly; every task changes its power for a limited time and
  goes on as planned afterwards. Corrections are sent to the devices, and one that
  a device does not take is undone.
-/

import SiteDispatch.Adaptation.Index
import SiteDispatch.Flexibility.Validity
import SiteDispatch.Halt
import SiteDispatch.Monitoring
import SiteDispatch.Queue.Basic
import SiteDispatch.Transport.Basic

namespace SiteDispatch

/-- A correction on its way to a device. -/
structure Confirmation where
  key : AdaptableKey
  /-- The part of the profile that is sent. -/
  update : PowerProfile
  adapted : PowerProfile
  backup : PowerProfile
deriving DecidableEq

/-- What a measurement led to. -/
structure AdaptationRound where
  adjusted : Nat
  rejected : Nat
  /-- Corrections to be confirmed by the devices, in order. -/
  confirmations : List Confirmation
deriving DecidableEq

/-- A round in which there was nothing to adapt. -/
def AdaptationRound.nothing : AdaptationRound := ⟨0, 0, []⟩

/-- What the adapter works on. -/
structure Adapter where
  index : AdaptableIndex
  queue : JobQueue
deriving DecidableEq

namespace AdaptableEntry

/-- Offset at which a correction ends: after `horizon` seconds, counted in the narrow
    range, or with the profile. -/
def boundary (entry : AdaptableEntry) (offset horizon : Int) : Int :=
  min (Quantity.low32 (offset + max horizon 1))
    (entry.task.power.lastKey?.getD entry.task.runningTime)

/-- The profile without entries in `[offset, boundary]`. -/
def opened (entry : AdaptableEntry) (offset boundary : Int) : PowerProfile :=
  entry.task.power.filter fun k _ => k < offset || boundary < k

/-- The power to run at from `offset` to `boundary`: the present one changed by
    `share`, within the corridor, and 0 W if the energy corridor leaves no room for
    it. -/
def correctedPower (entry : AdaptableEntry) (share : Float) (offset boundary : Int) :
    Except Halt Int := do
  let present := PowerProfile.powerAt entry.task.power offset
  let wanted := Quantity.truncate32 (Float.ofInt present + share)
  let power ← match entry.flexibility.powerCorridor.floorValue? offset with
    | some bound => Halt.clamp bound.low bound.high wanted
    | none => .ok wanted
  match entry.flexibility.residualEnergy? (entry.opened offset boundary) offset with
  | none => return power
  | some residual =>
    let energy := power * Quantity.low32 (boundary - offset)
    if (0 < power && residual.high ≤ energy) || (power < 0 && energy ≤ residual.low) then return 0
    else return power

/-- The profile that runs at `power` from `offset` to `boundary`. -/
def corrected (entry : AdaptableEntry) (power offset boundary : Int) : PowerProfile :=
  ((entry.opened offset boundary).insert offset power).insert boundary
    (PowerProfile.powerAt entry.task.power boundary)

/-- The part of a profile from `offset` to `boundary`. -/
def window (profile : PowerProfile) (offset boundary : Int) : Except Halt PowerProfile :=
  if boundary < offset then .error .reversedWindow
  else .ok (profile.filter fun k _ => offset ≤ k && k ≤ boundary)

/-- The correction of an entry by `share` W at `now`; none if it would not be
    valid. -/
def correction (entry : AdaptableEntry) (key : AdaptableKey) (share : Float) (now horizon : Int) :
    Except Halt (Option Confirmation) := do
  let offset := Quantity.low32 (now - entry.task.startingTime)
  let boundary := entry.boundary offset horizon
  let power ← entry.correctedPower share offset boundary
  let adapted := entry.corrected power offset boundary
  if entry.flexibility.accepts entry.task.startingTime adapted then
    return some ⟨key, ← window adapted offset boundary, adapted, entry.task.power⟩
  else return none

end AdaptableEntry

namespace Adapter

/-- Replaces the profile of an entry. -/
def setPower (a : Adapter) (key : AdaptableKey) (power : PowerProfile) : Adapter :=
  { a with index := a.index.modify key fun entry =>
      { entry with task := { entry.task with power := power } } }

/-- Asks for an optimisation. -/
def requestOptimization (a : Adapter) (now : Int) : Adapter :=
  { a with queue := (a.queue.queueTargetOptimization false now).2 }

/-- Corrects the tasks with the given keys one after the other. A task that cannot
    be corrected is left to the next optimisation. -/
def adaptAll (share : Float) (now horizon : Int) :
    List AdaptableKey → Adapter → Except Halt (AdaptationRound × Adapter)
  | [], a => .ok (.nothing, a)
  | key :: rest, a =>
    match a.index.get? key with
    | none => adaptAll share now horizon rest a
    | some entry => do
      match ← entry.correction key share now horizon with
      | none =>
        let (round, a) ← adaptAll share now horizon rest (a.requestOptimization now)
        return ({ round with rejected := round.rejected + 1 }, a)
      | some confirmation =>
        let (round, a) ← adaptAll share now horizon rest (a.setPower key confirmation.adapted)
        return ({ round with
          adjusted := round.adjusted + 1
          confirmations := confirmation :: round.confirmations }, a)

/-- Shares the measured deviation among the running adaptable tasks. -/
def adapt (a : Adapter) (data : MonitoringData) (now horizon : Int) :
    Except Halt (AdaptationRound × Adapter) :=
  let running := AdaptableIndex.running a.index now
  let share := data.difference / Float.ofInt running.length
  adaptAll share now horizon running a

/-- The same, but nothing happens while the index is in use by somebody else. -/
def adaptUnlessLocked (locked : Bool) (a : Adapter) (data : MonitoringData) (now horizon : Int) :
    Except Halt (AdaptationRound × Adapter) :=
  if locked then .ok (.nothing, a) else a.adapt data now horizon

/-- Takes a device's answer to a correction. Unless the device took it, the entry
    gets its former profile back if it still has the corrected one, and an
    optimisation is asked for. -/
def settle (a : Adapter) (c : Confirmation) (reply : Except TransportError SchedulingResult)
    (now : Int) : Adapter :=
  match reply with
  | .ok .ok => a
  | _ =>
    let restored := match a.index.get? c.key with
      | some entry => if entry.task.power = c.adapted then a.setPower c.key c.backup else a
      | none => a
    restored.requestOptimization now

end Adapter
end SiteDispatch
