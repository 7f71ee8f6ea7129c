/-
  SiteDispatch.Profile

  Power over time as a step function. A profile maps seconds since the start of
  a task to watts, a timeline maps epoch seconds to watts; the value in force at
  an instant is that of the last entry at or before it, 0 W before the first.

  The module integrates such functions and brings profiles into their shortest
  form.
-/

import SiteDispatch.Interval
import SiteDispatch.OrderedMap.Basic

namespace SiteDispatch

/-- Offset in seconds ↦ W. The last key marks the end. -/
abbrev PowerProfile := OrderedMap Int Int

/-- Epoch second ↦ W. -/
abbrev PowerTimeline := OrderedMap Int Int

/-- Offset in seconds ↦ bound. Read as a step function for power and as a
    piecewise linear one for energy. -/
abbrev Corridor := OrderedMap Int Interval

/-- Sorted insertion of an instant that may be there already. -/
def insertInstant (t : Int) : List Int → List Int
  | [] => [t]
  | u :: rest =>
    if t < u then t :: u :: rest
    else if u < t then u :: insertInstant t rest
    else u :: rest

/-- The positive ones among `keys`, ascending and without repetition: the
    instants after 0 at which a step function with these keys may change. -/
def breakpoints (keys : List Int) : List Int :=
  (keys.filter (fun k => 0 < k)).foldr insertInstant []

namespace PowerProfile

/-- Power in force at `t` in W. -/
def powerAt (p : PowerProfile) (t : Int) : Int := (p.floorValue? t).getD 0

/-- Energy in Ws from `t` along the ascending instants `later`, the power being
    constant between two of them. -/
def energyAlong (p : PowerProfile) : Int → List Int → Int
  | _, [] => 0
  | t, next :: later => powerAt p t * (next - t) + energyAlong p next later

/-- Energy in Ws over `[from, until)`. -/
def energyBetween (p : PowerProfile) (start stop : Int) : Int :=
  if start < stop then
    energyAlong p start (p.keys.filter (fun k => start < k && k < stop) ++ [stop])
  else 0

/-- Energy in Ws over `[0, until)`. -/
def integral (p : PowerProfile) (stop : Int) : Int := energyBetween p 0 stop

/-- 0 W from offset 0 to `runningTime`. -/
def idle (runningTime : Int) : PowerProfile :=
  (OrderedMap.singleton 0 0).insert runningTime 0

/-- The entries after one with value `previous` that are worth keeping: those
    under `pinned` keys and those that change the value. -/
def changes (pinned : Int → Bool) (previous : Option Int) : List (Int × Int) → List (Int × Int)
  | [] => []
  | e :: rest =>
    if pinned e.1 || previous ≠ some e.2 then e :: changes pinned (some e.2) rest
    else changes pinned (some e.2) rest

theorem changes_sublist (pinned : Int → Bool) (previous : Option Int) (l : List (Int × Int)) :
    (changes pinned previous l).Sublist l := by
  induction l generalizing previous with
  | nil => exact List.Sublist.slnil
  | cons e rest ih =>
    unfold changes
    split
    · exact (ih _).cons_cons e
    · exact (ih _).cons e

/-- The profile without entries that repeat the value before them. Key 0, the
    running time and the last key stay in any case. -/
def compress (p : PowerProfile) (runningTime : Int) : PowerProfile :=
  ⟨changes (fun k => k = 0 || k = runningTime || some k = p.lastKey?) none p.entries,
    p.ascending.sublist (changes_sublist _ _ _)⟩

end PowerProfile
end SiteDispatch
