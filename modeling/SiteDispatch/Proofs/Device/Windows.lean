/-
  SiteDispatch.Proofs.Device.Windows

  When a device runs the profile that has been scheduled.

  Scheduling clears the window that the task had and writes the profile into the one it gets.
  A setpoint that lies in the new window only stays where it is, and the device runs the profile
  exactly if all of these say what the profile says. A task never leaves the window that it had
  if it is not moved forward, since it keeps the end with which it was created, for days as a
  calendar has them.
-/

import SiteDispatch.Proofs.Calendar.Forward
import SiteDispatch.Proofs.Device.Days
import SiteDispatch.Proofs.Device.Timeline

namespace SiteDispatch

open PowerProfile

/-! ## A profile between other setpoints -/

section Scheduled

variable {line : PowerTimeline} {p : PowerProfile} {start last a b : Int}

/-- Inside its window a scheduled profile comes before what is left of the timeline. -/
theorem get?_scheduledLine {i : Int} (hlast : p.lastKey? = some last) (hi : i < last) :
    (PowerTimeline.write (PowerTimeline.clear line a b) start p
        fun offset => some offset = p.lastKey?).get? (start + i)
      = (p.get? i).or (if a ≤ start + i ∧ start + i < b then none
          else line.get? (start + i)) := by
  rw [get?_write, get?_clear]
  cases p.get? i with
  | none => rfl
  | some v =>
      -- The one entry that gives way is the last one.
      have hmarker : decide (some i = p.lastKey?) = false := by
        rw [hlast, decide_eq_false_iff_not, Option.some.injEq]
        omega
      simp only [hmarker, Bool.false_eq_true, if_false]
      rfl

/-- The timeline shows a scheduled profile exactly if every setpoint that is left inside its
    window says what the profile says. -/
theorem scheduledLine_shows_iff (line : PowerTimeline) (start a b : Int) (hzero : 0 ∈ p.keys)
    (hlast : p.lastKey? = some last) :
    (∀ t, 0 ≤ t → t < last →
      powerAt (PowerTimeline.write (PowerTimeline.clear line a b) start p
        fun offset => some offset = p.lastKey?) (start + t) = powerAt p t) ↔
    ∀ i v, 0 ≤ i → i < last → line.get? (start + i) = some v →
      ¬ (a ≤ start + i ∧ start + i < b) → i ∉ p.keys → v = powerAt p i := by
  constructor
  · -- A setpoint that is left is in force at its own instant.
    intro hshown i v h0 hi hv hout hkey
    have hget : (PowerTimeline.write (PowerTimeline.clear line a b) start p
        fun offset => some offset = p.lastKey?).get? (start + i) = some v := by
      rw [get?_scheduledLine hlast hi, OrderedMap.get?_eq_none_iff.2 hkey, if_neg hout, hv]
      rfl
    rw [← hshown i h0 hi, powerAt_of_get? hget]
  · intro hleft t h0 ht
    have hmem : ∀ i ∈ p.keys, i < last → start + i ∈ (PowerTimeline.write
        (PowerTimeline.clear line a b) start p
          fun offset => some offset = p.lastKey?).keys := by
      intro i hi hilast
      obtain ⟨v, hv⟩ := OrderedMap.mem_keys_iff_get?.1 hi
      rw [OrderedMap.mem_keys_iff_get?, get?_scheduledLine hlast hilast, hv]
      exact ⟨v, rfl⟩
    refine powerAt_sampled h0 (hmem 0 hzero (by omega)) (fun i hi _ hit => hmem i hi (by omega))
      fun i v hi hit hv => ?_
    rw [get?_scheduledLine hlast (by omega)] at hv
    -- Each entry of the timeline is one of the profile or one that is left.
    by_cases hkey : i ∈ p.keys
    · obtain ⟨w, hw⟩ := OrderedMap.mem_keys_iff_get?.1 hkey
      rw [hw, Option.some_or, Option.some.injEq] at hv
      rw [← hv, powerAt_of_get? hw]
    · rw [OrderedMap.get?_eq_none_iff.2 hkey, Option.none_or] at hv
      split_ifs at hv with hcleared
      exact hleft i v hi (by omega) hv hcleared hkey

end Scheduled

/-! ## Days whose length fits -/

/-- The length of every day fits the narrow range. -/
def Zone.Narrow (z : Zone) : Prop :=
  ∀ t, Quantity.low32 (Calendar.startOfNextDay z t - Calendar.startOfDay z t)
    = Calendar.startOfNextDay z t - Calendar.startOfDay z t

/-- Days are created with a length that fits the narrow range. -/
def DeviceOperation.Narrow : DeviceOperation → Prop
  | addDay start stop _ _ => Quantity.low32 (stop - start) = stop - start
  | getSchedule _ _ _ _ _ zone _ => zone.Narrow
  | _ => True

/-- No day is much longer than two days as long as clocks are set by less than one. -/
theorem Zone.narrow_of_offsets {z : Zone} (hoffsets : ∀ o ∈ z.offsets, -86400 ≤ o ∧ o ≤ 86400) :
    z.Narrow := by
  intro t
  have hbounds := fun t => hoffsets _ (z.offsetAt_mem_offsets t)
  have hnow := hbounds t
  have hfirst := hbounds (Calendar.startOfDay z t)
  have hnext := hbounds (Calendar.startOfNextDay z t)
  have hstarts := z.startOfDay_cases t
  have hends := z.startOfNextDay_cases t
  simp only [Calendar.dayNumber, Zone.localTime, Calendar.daySeconds] at *
  apply Quantity.low32_eq_self
  · simp only [Quantity.least]
    omega
  · simp only [Quantity.greatest]
    omega

/-- Every zone of the table is one of these. -/
theorem Zone.narrow_of_mem : ∀ z ∈ Zone.all, z.Narrow := by
  intro z hz
  obtain ⟨low, high, h⟩ := setWithin_of_mem z hz
  have hbounds := h.bounds
  refine narrow_of_offsets fun o ho => ?_
  have := h.offset o ho
  omega

namespace DeviceState

/-- A pair whose task ends at the one instant at which it may end. -/
structure EndingPair (k : Int) (f : Flexibility) (t : Task) : Prop extends Linked k f t where
  ends : f.stoppingTime = ⟨t.stop, t.stop⟩

theorem endingPair_offeredDay {id start stop stored : Int} {c : DeviceConfig} (hid : 0 ≤ id)
    (hfits : Quantity.low32 (stop - start) = stop - start) :
    EndingPair id (offeredDay id start stop stored c)
      (Task.idle id id true start (Quantity.low32 (stop - start))) := by
  have hstop : (Task.idle id id true start (Quantity.low32 (stop - start))).stop = stop := by
    simp only [Task.stop, Task.idle]
    omega
  exact
    { nonneg := hid
      flexibility := rfl
      assigned := rfl
      task := rfl
      named := rfl
      ends := by rw [hstop]; rfl }

/-- A task keeps its end, wherever its start is moved to. -/
theorem endingInvariant : PairInvariant DeviceOperation.Narrow EndingPair where
  linked h := h.toLinked
  newDay hid hday := endingPair_offeredDay hid hday
  localDay hzone _ _ hid := endingPair_offeredDay hid (hzone _)
  corridors power energy h := { h with }
  scheduled h _ hfits :=
    { h with ends := by rw [(hfits.rescheduled h.ends).2, h.ends], task := h.task, named := h.named }
  adapted h _ := { h with }
  rested h := { h with }
  repaired h _ := { h with }
  compressed h := { h with }

/-- The flexibility that an id names has the task of the same id, which ends when it has to. -/
theorem Reachable.ends_of_flexibility {s : DeviceState} (hs : Reachable DeviceOperation.Narrow s)
    {id : Int} {f : Flexibility} {task : Task} (hf : s.flexibilities.get? id = some f)
    (htask : s.tasks.get? f.taskId = some task) :
    f.taskId = id ∧ f.stoppingTime = ⟨task.stop, task.stop⟩ := by
  obtain ⟨t, ht, hpair⟩ := (hs.holds endingInvariant).paired.of_flexibility hf
  rw [hpair.assigned, ht, Option.some.injEq] at htask
  exact ⟨hpair.assigned, htask ▸ hpair.ends⟩

/-! ## Inside the new window -/

/-- A setpoint that scheduling `profile` from `startingTime` on leaves in its way: it lies in the
    window the task gets but not in the one it had, and `profile`, stored in its shortest form,
    has no entry there. -/
def Leftover (s : DeviceState) (task : Task) (startingTime last : Int) (profile : PowerProfile)
    (time watts : Int) : Prop :=
  s.scheduledPower.get? time = some watts ∧ startingTime ≤ time ∧ time < startingTime + last ∧
    ¬ task.isRunning time ∧ time - startingTime ∉ (PowerProfile.compress profile last).keys

section Schedule

variable {s s' : DeviceState} {f : Flexibility} {task : Task}
  {id startingTime now last : Int} {power : PowerProfile}

@[simp] theorem startingTime_rescheduled :
    (rescheduled task startingTime power).startingTime = startingTime := rfl

theorem power_rescheduled (hlast : power.lastKey? = some last) :
    (rescheduled task startingTime power).power = PowerProfile.compress power last := by
  simp only [rescheduled, Task.compress, hlast, Option.getD_some]

/-- After a profile has been taken the device runs it exactly if no setpoint in its way says
    something else. -/
theorem withScheduled_shows_iff (s : DeviceState) (task : Task)
    (hfits : f.Fits startingTime power) (hlast : power.lastKey? = some last) :
    (∀ t, startingTime ≤ t → t < startingTime + last →
      (s.withScheduled f task startingTime power).powerAt t
        = PowerProfile.powerAt power (t - startingTime)) ↔
    ∀ time watts, Leftover s task startingTime last power time watts →
      watts = PowerProfile.powerAt power (time - startingTime) := by
  have hzero : 0 ∈ (PowerProfile.compress power last).keys := zero_mem_keys_compress hfits.starts
  have hstored : (PowerProfile.compress power last).lastKey? = some last := lastKey?_compress hlast
  have hiff := scheduledLine_shows_iff s.scheduledPower startingTime task.startingTime task.stop
    hzero hstored
  simp only [powerAt_compress] at hiff
  have hline : (s.withScheduled f task startingTime power).scheduledPower
      = PowerTimeline.write (PowerTimeline.clear s.scheduledPower task.startingTime task.stop)
          startingTime (PowerProfile.compress power last)
          fun offset => some offset = (PowerProfile.compress power last).lastKey? := by
    simp only [withScheduled, power_rescheduled hlast]
  -- Instants on one side, offsets on the other.
  have hback : ∀ t, startingTime + (t - startingTime) = t := fun t => by omega
  have hforth : ∀ i, startingTime + i - startingTime = i := fun i => by omega
  constructor
  · rintro hshown time watts ⟨hget, hge, hlt, hrunning, hkey⟩
    rw [Task.isRunning_iff] at hrunning
    have hleft := hiff.1 fun t h0 ht => by
      have := hshown (startingTime + t) (by omega) (by omega)
      rwa [powerAt, hline, hforth] at this
    refine hleft (time - startingTime) watts (by omega) (by omega) ?_ ?_ hkey
    · rw [hback, hget]
    · rw [hback]
      exact hrunning
  · intro hleft t hge hlt
    have hshown := hiff.2 (fun i v h0 hi hv hout hkey => by
      have := hleft (startingTime + i) v
        ⟨hv, by omega, by omega, by rw [Task.isRunning_iff]; exact hout, by rwa [hforth]⟩
      rwa [hforth] at this) (t - startingTime) (by omega) (by omega)
    rwa [hback, ← hline] at hshown

end Schedule

/-- After a profile has been taken the device runs it in the whole window that the task gets if
    and only if every setpoint that is left in its way says what the profile says. Nothing is
    left if the profile starts no earlier than the task did, whatever has been asked before. -/
theorem scheduled_profile_runs_iff {s s' : DeviceState} {id startingTime now : Int}
    {power : PowerProfile} (hok : s.schedule id startingTime power now = (.ok, s')) :
    ∃ f task last, s.flexibilities.get? id = some f ∧ s.tasks.get? f.taskId = some task ∧
      power.lastKey? = some last ∧
      ((∀ t, startingTime ≤ t → t < startingTime + last →
          s'.powerAt t = PowerProfile.powerAt power (t - startingTime)) ↔
        ∀ time watts, Leftover s task startingTime last power time watts →
          watts = PowerProfile.powerAt power (time - startingTime)) ∧
      (Reachable DeviceOperation.Narrow s → task.startingTime ≤ startingTime →
        ∀ t, startingTime ≤ t → t < startingTime + last →
          s'.powerAt t = PowerProfile.powerAt power (t - startingTime)) := by
  rcases s.schedule_cases id startingTime power now with
    ⟨hrefused, -⟩ | ⟨f, task, hf, htask, -, hfits, heq⟩
  · rw [hok] at hrefused
    exact absurd rfl hrefused
  · have hs' : s' = s.withScheduled f task startingTime power :=
      (Prod.mk.inj (hok.symm.trans heq)).2
    obtain ⟨last, hentry, -, hstop⟩ := hfits.stops
    have hlast : power.lastKey? = some last := by
      rw [OrderedMap.lastKey?_eq_map, hentry]
      rfl
    have hiff := withScheduled_shows_iff s task hfits hlast
    rw [hs']
    refine ⟨f, task, last, hf, htask, hlast, hiff, fun hs hlater => hiff.2 ?_⟩
    -- The new window ends with the old one, so that it lies inside.
    rw [(hs.ends_of_flexibility hf htask).2, Interval.contains_iff] at hstop
    rintro time watts ⟨-, hge, hlt, hrunning, -⟩
    rw [Task.isRunning_iff] at hrunning
    exact absurd ⟨by omega, by dsimp only at hstop; omega⟩ hrunning

theorem narrow_twoWholeDays : Reachable DeviceOperation.Narrow twoWholeDays :=
  .step .fresh (Zone.narrow_of_mem _ List.mem_cons_self)

/-- The first day charges slowly. The second is left to its afternoon, so that the charging goes on
    in the morning, until a repair puts an end to it. -/
def morningRepaired : DeviceState :=
  [.schedule 0 0 (.ofList [(0, 20), (86400, 0)]) 0,
   .schedule 1 129600 (.ofList [(0, 0), (43200, 0)]) 0,
   .repair 90000 5400 600 5400].foldl DeviceOperation.perform twoWholeDays

/-- When the second day is scheduled as a whole afterwards, the setpoint of the repair stays in
    its window. -/
theorem leftover_setpoint_runs :
    ∃ s s' : DeviceState, ∃ power : PowerProfile,
      Reachable (fun _ => True) s ∧ s.schedule 1 86400 power 90000 = (.ok, s') ∧
      (∀ k ∈ power.keys, 0 ≤ k) ∧ power.lastKey? = some 86400 ∧
      ∃ t, 86400 ≤ t ∧ t < 86400 + 86400 ∧
        s'.powerAt t ≠ PowerProfile.powerAt power (t - 86400) := by
  refine ⟨morningRepaired, _, .ofList [(0, 20), (86400, 0)], ?_, rfl, by decide, by decide,
    90000, by decide, by decide, by decide +kernel⟩
  exact (narrow_twoWholeDays.mono fun _ _ => trivial).foldl _ fun _ _ => trivial

/-- Scheduled for the afternoon of the second day, a profile runs from noon to midnight. -/
theorem scheduled_profile_runs_afternoon :
    ∃ s' : DeviceState,
      twoWholeDays.schedule 1 129600 (.ofList [(0, 500), (3600, 0), (43200, 0)]) 0 = (.ok, s') ∧
      ∀ t, 129600 ≤ t → t < 172800 → s'.powerAt t
        = PowerProfile.powerAt (.ofList [(0, 500), (3600, 0), (43200, 0)]) (t - 129600) := by
  have hok : (twoWholeDays.schedule 1 129600 (.ofList [(0, 500), (3600, 0), (43200, 0)]) 0).1
      = .ok := by decide +kernel
  obtain ⟨f, task, last, hf, htask, hlast, -, hshown⟩ :=
    scheduled_profile_runs_iff (Prod.ext hok rfl)
  have hid : ∀ f, twoWholeDays.flexibilities.get? 1 = some f → f.taskId = 1 := by
    decide +kernel
  have hstart : ∀ task, twoWholeDays.tasks.get? 1 = some task → task.startingTime = 86400 := by
    decide +kernel
  rw [hid f hf] at htask
  have hend : last = 43200 := (Option.some.inj hlast).symm
  subst hend
  refine ⟨_, Prod.ext hok rfl, hshown narrow_twoWholeDays ?_⟩
  rw [hstart task htask]
  decide

end DeviceState
end SiteDispatch
