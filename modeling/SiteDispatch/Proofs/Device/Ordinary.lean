/-
  SiteDispatch.Proofs.Device.Ordinary

  The pairs of a device that has only been asked about ordinary days.

  A day without more than 30 hours gives a task whose offsets fit the narrow range.
  Whatever happens to the task afterwards, it stays adaptable, keeps its end and
  ends with 0 W: the gate admits one end only, so a task can be shortened from its
  start but never moved.
-/

import SiteDispatch.Proofs.Calendar.Day
import SiteDispatch.Proofs.Device.Reachable

namespace SiteDispatch

/-- A day that is added is ordinary, and so are the two days that a request asks about. -/
def DeviceOperation.Ordinary : DeviceOperation → Prop
  | addDay start stop _ _ => start ≤ stop ∧ stop - start ≤ longestDay
  | getSchedule _ start stop _ _ zone _ => zone.OrdinaryDay start ∧ zone.OrdinaryDay stop
  | _ => True

/-! ## Profiles that end with rest -/

theorem lastEntry?_idle {runningTime : Int} (h : 0 ≤ runningTime) :
    OrderedMap.lastEntry? (PowerProfile.idle runningTime) = some (runningTime, 0) := by
  rw [OrderedMap.lastEntry?_eq_some_iff, PowerProfile.idle]
  refine ⟨OrderedMap.get?_insert_self _ _ _, fun j hj => ?_⟩
  rw [OrderedMap.mem_keys_iff_get?, OrderedMap.get?_insert, OrderedMap.get?_singleton] at hj
  obtain ⟨v, hv⟩ := hj
  split_ifs at hv <;> omega

/-- A profile that fits a flexibility with a single admissible end has its last entry
    there. -/
theorem Flexibility.Fits.lastEntry? {f : Flexibility} {startingTime stop : Int}
    {p : PowerProfile} (h : f.Fits startingTime p) (hends : f.stoppingTime = ⟨stop, stop⟩) :
    p.lastEntry? = some (stop - startingTime, 0) := by
  obtain ⟨last, hlast, -, hstop⟩ := h.stops
  rw [hends, Interval.contains_iff] at hstop
  have heq : last = stop - startingTime := by
    dsimp only at hstop
    omega
  rw [hlast, heq]

theorem Flexibility.Fits.last_nonneg {f : Flexibility} {startingTime last : Int}
    {p : PowerProfile} (h : f.Fits startingTime p) (hlast : p.lastEntry? = some (last, 0)) :
    0 ≤ last :=
  Int.not_lt.1 ((OrderedMap.lastEntry?_eq_some_iff.1 hlast).2 0 h.starts)

/-- A fitting profile moves the start of a task but not its end. -/
theorem Flexibility.Fits.rescheduled {f : Flexibility} {t : Task} {startingTime : Int}
    {power : PowerProfile} (h : f.Fits startingTime power)
    (hends : f.stoppingTime = ⟨t.stop, t.stop⟩) :
    (DeviceState.rescheduled t startingTime power).runningTime = t.stop - startingTime ∧
      (DeviceState.rescheduled t startingTime power).stop = t.stop := by
  have hkey : power.lastKey? = some (t.stop - startingTime) :=
    OrderedMap.lastKey?_eq_of_lastEntry (h.lastEntry? hends)
  have hrun : (DeviceState.rescheduled t startingTime power).runningTime = t.stop - startingTime := by
    simp only [DeviceState.rescheduled, Task.compress, hkey, Option.getD_some]
  refine ⟨hrun, ?_⟩
  rw [Task.stop, hrun]
  simp only [DeviceState.rescheduled, Task.compress]
  omega

namespace DeviceState

/-! ## The invariant -/

/-- A pair that an ordinary day has led to. -/
structure OrdinaryPair (k : Int) (f : Flexibility) (t : Task) : Prop extends Linked k f t where
  offered : f.adaptable = true
  adaptable : t.adaptable = true
  lasting : 0 ≤ t.runningTime
  inTime : t.runningTime ≤ f.runningTime.high
  short : f.runningTime.high ≤ longestDay
  ends : f.stoppingTime = ⟨t.stop, t.stop⟩
  rests : t.power.lastEntry? = some (t.runningTime, 0)

/-- A new day is ordinary if it has no more than 30 hours. -/
theorem ordinaryPair_offeredDay {id start stop stored : Int} {c : DeviceConfig} (hid : 0 ≤ id)
    (hle : start ≤ stop) (hshort : stop - start ≤ longestDay) :
    OrdinaryPair id (offeredDay id start stop stored c)
      (Task.idle id id true start (Quantity.low32 (stop - start))) := by
  -- The length of a day fits into 32 bits.
  have hlow : Quantity.low32 (stop - start) = stop - start := by
    apply Quantity.low32_eq_self
    · simp only [Quantity.least]
      omega
    · simp only [Quantity.greatest, longestDay] at *
      omega
  rw [hlow]
  have hstop : (Task.idle id id true start (stop - start)).stop = stop := by
    simp only [Task.stop, Task.idle]
    omega
  exact
    { nonneg := hid
      flexibility := rfl
      assigned := rfl
      task := rfl
      named := rfl
      offered := rfl
      adaptable := rfl
      lasting := by simp only [Task.idle]; omega
      inTime := by simp only [Task.idle, offeredDay, hlow]; omega
      short := by simp only [offeredDay, hlow]; exact hshort
      ends := by rw [hstop]; rfl
      rests := lastEntry?_idle (by omega) }

theorem OrdinaryPair.scheduled {k startingTime : Int} {f : Flexibility} {t : Task}
    {power : PowerProfile} (h : OrdinaryPair k f t) (hfits : f.Fits startingTime power) :
    OrdinaryPair k f (rescheduled t startingTime power) := by
  have hlast := hfits.lastEntry? h.ends
  obtain ⟨hrun, hstop⟩ := hfits.rescheduled h.ends
  obtain ⟨last, hlast', hhigh, -⟩ := hfits.stops
  have heq : last = t.stop - startingTime := by
    rw [hlast, Option.some.injEq, Prod.mk.injEq] at hlast'
    exact hlast'.1.symm
  refine { h with
    adaptable := h.adaptable
    lasting := ?_, inTime := ?_, ends := ?_, rests := ?_, task := h.task, named := h.named }
  · rw [hrun]
    exact hfits.last_nonneg hlast
  · rw [hrun, ← heq]
    exact hhigh
  · rw [hstop, h.ends]
  · rw [hrun]
    exact PowerProfile.lastEntry?_compress hlast

/-- The end of a corrected profile is that of the task. -/
theorem OrdinaryPair.adapted {k : Int} {f : Flexibility} {t : Task} {power : PowerProfile}
    (h : OrdinaryPair k f t) (hfits : f.Fits t.startingTime power) :
    OrdinaryPair k f (Task.compress { t with power := power }) := by
  have hlast := hfits.lastEntry? h.ends
  have hrun : t.stop - t.startingTime = t.runningTime := by
    simp only [Task.stop]
    omega
  rw [hrun] at hlast
  exact { h with rests := PowerProfile.lastEntry?_compress hlast }

/-- A repair takes effect before the end of the task. -/
theorem OrdinaryPair.repaired {k time : Int} {f : Flexibility} {t : Task}
    (h : OrdinaryPair k f t) (hcovers : covers time false t) :
    OrdinaryPair k f
      { t with power := t.power.insert (Quantity.low32 (time - t.startingTime)) 0 } := by
  -- The repaired instant lies inside the task, before its last entry.
  have hinside : 0 ≤ time - t.startingTime ∧ time - t.startingTime < t.runningTime := by
    obtain ⟨hstart, hstop⟩ := covers_iff.1 hcovers
    simp only [Task.stop, Bool.false_eq_true, false_and, or_false] at hstop
    omega
  have hlow : Quantity.low32 (time - t.startingTime) = time - t.startingTime := by
    have := h.inTime
    have := h.short
    apply Quantity.low32_eq_self
    · simp only [Quantity.least]
      omega
    · simp only [Quantity.greatest, longestDay] at *
      omega
  refine { h with rests := ?_ }
  rw [hlow]
  exact OrderedMap.lastEntry?_insert_of_lt h.rests hinside.2

/-- Whatever is asked about ordinary days, pairs stay ordinary. -/
theorem ordinaryInvariant : PairInvariant DeviceOperation.Ordinary OrdinaryPair where
  linked h := h.toLinked
  newDay hid hday := ordinaryPair_offeredDay hid hday.1 hday.2
  localDay hdays htime _ hid := by
    rcases htime with rfl | rfl
    · exact ordinaryPair_offeredDay hid hdays.1.forward hdays.1.short
    · exact ordinaryPair_offeredDay hid hdays.2.forward hdays.2.short
  corridors power energy h := { h with }
  scheduled h _ hfits := h.scheduled hfits
  adapted h hfits := h.adapted hfits
  rested h := { h with rests := lastEntry?_idle h.lasting }
  repaired h hcovers := h.repaired hcovers
  compressed h := { h with rests := PowerProfile.lastEntry?_compress h.rests }

end DeviceState
end SiteDispatch
