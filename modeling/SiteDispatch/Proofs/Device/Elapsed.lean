/-
  SiteDispatch.Proofs.Device.Elapsed

  What scheduling a profile does to the time that is over.

  Whether a task may still be scheduled is judged by the start that it has. The one that it gets
  is the caller's choice: the gate only sees to it that the profile ends with the task, and does
  not look at offsets before its start. So entries of a profile may come to lie before `now`, and
  the power of the past stays what it was exactly if they repeat it. A profile starts in the past
  exactly if it takes longer than what is left until the end of the task, so that the task has to
  have been shortened before.
-/

import SiteDispatch.Proofs.Device.Windows

namespace SiteDispatch

open PowerProfile

/-! ## The time that is over -/

/-- A timeline to which entries are added says before `now` what it said exactly if each of its
    entries there repeats what it said. -/
theorem powerAt_unchanged_iff {line written : PowerTimeline} {now : Int}
    (hkept : ∀ k ∈ line.keys, k < now → k ∈ written.keys) :
    (∀ t, t < now → powerAt written t = powerAt line t) ↔
    ∀ k v, k < now → written.get? k = some v → v = powerAt line k := by
  constructor
  · -- An entry is in force at its own instant.
    intro hsame k v hk hv
    rw [← hsame k hk, powerAt_of_get? hv]
  · intro hrepeats t ht
    by_cases hfirst : ∃ j ∈ written.keys, j ≤ t
    · obtain ⟨j, hj, hjt⟩ := hfirst
      have hsampled := powerAt_sampled (p := line) (d := 0) hjt (by simpa using hj)
        (fun i hi _ hit => by simpa using hkept i hi (by omega))
        fun i v _ hit hv => hrepeats i v (by omega) (by simpa using hv)
      simpa using hsampled
    · -- Nothing has been set by then, neither before nor now.
      refine powerAt_congr fun j hj => ?_
      have hnone := fun hmem => hfirst ⟨j, hmem, hj⟩
      rw [OrderedMap.get?_eq_none_iff.2 hnone, eq_comm, OrderedMap.get?_eq_none_iff]
      exact fun hmem => hnone (hkept j hmem (by omega))

section Scheduled

variable {p : PowerProfile} {last a now : Int}

/-- Before the window that is cleared a profile is written over the timeline, and its last entry
    gives way. -/
theorem get?_scheduledLine_of_lt (line : PowerTimeline) (start b : Int)
    (hlast : p.lastKey? = some last) {k : Int} (hk : k < a) :
    (PowerTimeline.write (PowerTimeline.clear line a b) start p
        fun offset => some offset = p.lastKey?).get? k
      = match p.get? (k - start) with
        | none => line.get? k
        | some v => if k = start + last then (line.get? k).or (some v) else some v := by
  have hshift : start + (k - start) = k := by omega
  have hmarker : decide (some (k - start) = p.lastKey?) = decide (k = start + last) := by
    rw [hlast, decide_eq_decide, Option.some.injEq]
    omega
  have hwrite := get?_write (PowerTimeline.clear line a b) start p
    (fun offset => some offset = p.lastKey?) (k - start)
  rw [hshift, get?_clear, if_neg (by omega), hmarker] at hwrite
  rw [hwrite]
  cases p.get? (k - start) with
  | none => rfl
  | some v => simp only [decide_eq_true_eq]

/-- Before `now` the power stays what it was exactly if every entry that is set there repeats
    it, as long as nothing is cleared there. -/
theorem scheduledLine_unchanged_iff (line : PowerTimeline) (start b : Int)
    (hlast : p.lastKey? = some last) (hnow : now ≤ a) :
    (∀ t, t < now → powerAt (PowerTimeline.write (PowerTimeline.clear line a b) start p
      fun offset => some offset = p.lastKey?) t = powerAt line t) ↔
    ∀ k v, k < now → p.get? (k - start) = some v → (k = start + last → line.get? k = none) →
      v = powerAt line k := by
  have hget := fun k (hk : k < now) =>
    get?_scheduledLine_of_lt line start b hlast (show k < a by omega)
  rw [powerAt_unchanged_iff]
  · refine ⟨fun hrepeats k v hk hv hfree => hrepeats k v hk ?_,
      fun hrepeats k v hk hv => ?_⟩
    · rw [hget k hk, hv]
      by_cases hend : k = start + last
      · simp only [if_pos hend, hfree hend, Option.none_or]
      · simp only [if_neg hend]
    · -- An entry is one of the timeline, which it repeats, or one that is set.
      by_cases hline : line.get? k = some v
      · exact (powerAt_of_get? hline).symm
      · rw [hget k hk] at hv
        cases hp : p.get? (k - start) with
        | none =>
            rw [hp] at hv
            exact absurd hv hline
        | some w =>
            simp only [hp] at hv
            split_ifs at hv with hend
            · cases hold : line.get? k with
              | none =>
                  rw [hold, Option.none_or, Option.some.injEq] at hv
                  exact hv ▸ hrepeats k w hk hp fun _ => hold
              | some u =>
                  rw [hold, Option.some_or] at hv
                  exact absurd (hold.trans hv) hline
            · rw [Option.some.injEq] at hv
              exact hv ▸ hrepeats k w hk hp fun h => absurd h hend
  · intro k hk hknow
    obtain ⟨w, hw⟩ := OrderedMap.mem_keys_iff_get?.1 hk
    rw [OrderedMap.mem_keys_iff_get?, hget k hknow, hw]
    cases p.get? (k - start) with
    | none => exact ⟨w, rfl⟩
    | some v => by_cases hend : k = start + last <;> simp [hend]

end Scheduled

/-- The present that an operation is told; two of them read no clock. -/
def DeviceOperation.askedAt? : DeviceOperation → Option Int
  | addDay .. => none
  | getSchedule _ _ _ now _ _ _ => some now
  | schedule _ _ _ now => some now
  | adapt .. => none
  | unschedule _ now => some now
  | repair now _ _ _ => some now
  | prune now => some now
  | applyTargetSoc _ _ now _ _ => some now

namespace DeviceState

/-- Scheduling `profile` from `startingTime` on sets the power at `time` to `watts`. The entry
    with which the profile ends gives way to one that is already there. -/
def Sets (s : DeviceState) (startingTime last : Int) (profile : PowerProfile)
    (time watts : Int) : Prop :=
  (PowerProfile.compress profile last).get? (time - startingTime) = some watts ∧
    (time = startingTime + last → s.scheduledPower.get? time = none)

section Schedule

variable {s : DeviceState} {f : Flexibility} {task : Task} {startingTime now last : Int}
  {power : PowerProfile}

/-- A task that has not started gets its new profile without a change to the past exactly if
    what is set there repeats it. -/
theorem withScheduled_past_iff (s : DeviceState) (f : Flexibility) (startingTime : Int)
    (hstarted : task.hasStarted now = false) (hlast : power.lastKey? = some last) :
    (∀ t, t < now → (s.withScheduled f task startingTime power).powerAt t = s.powerAt t) ↔
    ∀ time watts, time < now → s.Sets startingTime last power time watts →
      watts = s.powerAt time := by
  have hstored : (PowerProfile.compress power last).lastKey? = some last := lastKey?_compress hlast
  -- The window that is cleared is that of the task, which begins later.
  have hlater : now ≤ task.startingTime := by
    simpa [Task.hasStarted] using hstarted
  have hiff := scheduledLine_unchanged_iff s.scheduledPower startingTime task.stop hstored hlater
  simp only [powerAt, withScheduled, power_rescheduled hlast, Sets, and_imp]
  exact hiff

/-- Entries at no negative offset are set from the start of the profile on. -/
theorem Sets.start_le {time watts : Int} (h : s.Sets startingTime last power time watts)
    (hkeys : ∀ k ∈ power.keys, 0 ≤ k) : startingTime ≤ time := by
  have := hkeys _ (mem_keys_of_compress (OrderedMap.mem_keys_iff_get?.2 ⟨watts, h.1⟩))
  omega

end Schedule

/-- After a profile has been taken the power before `now` is what it was if and only if every
    entry that is set there repeats it. There is none if the profile starts no earlier than
    `now` and has no offset before its start. For a device with days as a calendar has them it
    starts no earlier exactly if it takes no longer than what is left until the end of the task,
    as a profile does that takes no longer than the task did. -/
theorem past_unchanged_iff {s s' : DeviceState} {id startingTime now : Int}
    {power : PowerProfile} (hok : s.schedule id startingTime power now = (.ok, s')) :
    ∃ f task task' last, s.flexibilities.get? id = some f ∧
      s.tasks.get? f.taskId = some task ∧ s'.tasks.get? f.taskId = some task' ∧
      task'.startingTime = startingTime ∧ power.lastKey? = some last ∧
      ((∀ t, t < now → s'.powerAt t = s.powerAt t) ↔
        ∀ time watts, time < now → s.Sets startingTime last power time watts →
          watts = s.powerAt time) ∧
      ((∀ k ∈ power.keys, 0 ≤ k) → now ≤ startingTime →
        ∀ t, t < now → s'.powerAt t = s.powerAt t) ∧
      (Reachable DeviceOperation.Narrow s →
        (now ≤ startingTime ↔ last ≤ task.stop - now) ∧
        (last ≤ task.runningTime → now ≤ startingTime)) := by
  rcases s.schedule_cases id startingTime power now with
    ⟨hrefused, -⟩ | ⟨f, task, hf, htask, hstarted, hfits, heq⟩
  · rw [hok] at hrefused
    exact absurd rfl hrefused
  · have hs' : s' = s.withScheduled f task startingTime power :=
      (Prod.mk.inj (hok.symm.trans heq)).2
    obtain ⟨last, hentry, -, hstop⟩ := hfits.stops
    have hlast : power.lastKey? = some last := by
      rw [OrderedMap.lastKey?_eq_map, hentry]
      rfl
    have hiff := s.withScheduled_past_iff f startingTime hstarted hlast
    have hlater : now ≤ task.startingTime := by
      simpa [Task.hasStarted] using hstarted
    rw [hs']
    refine ⟨f, task, _, last, hf, htask, OrderedMap.get?_insert_self _ _ _, rfl, hlast, hiff,
      fun hkeys hnow => hiff.2 fun time watts htime hset => ?_, fun hs => ?_⟩
    · have := hset.start_le hkeys
      omega
    · -- The profile ends with the task, which fixes its start.
      rw [(hs.ends_of_flexibility hf htask).2, Interval.contains_iff] at hstop
      dsimp only at hstop
      refine ⟨by omega, fun hshort => ?_⟩
      rw [Task.stop] at hstop
      omega

/-- The morning of a day is given up: a profile is scheduled that starts at noon. -/
def givingUpMorning : List DeviceOperation :=
  [.getSchedule ⟨1⟩ 86400 86410 0 3000 Zone.utc ⟨⟨1⟩, 6000, 10, 90, 2000, 2000, 100⟩,
   .schedule 0 129600 (.ofList [(0, 0), (43200, 0)]) 0]

/-- Later in that morning, the device waits for noon. -/
def morningGivenUp : DeviceState := givingUpMorning.foldl DeviceOperation.perform .fresh

theorem narrow_morningGivenUp : Reachable DeviceOperation.Narrow morningGivenUp := by
  refine Reachable.fresh.foldl _ fun op hop => ?_
  simp only [givingUpMorning, List.mem_cons, List.not_mem_nil, or_false] at hop
  rcases hop with rfl | rfl
  · exact Zone.narrow_of_mem _ List.mem_cons_self
  · trivial

/-- A profile for the whole day is still taken then and starts in the past, where it charges.
    One for the afternoon with an entry before its start charges there just as well. -/
theorem past_changes :
    (∀ op ∈ givingUpMorning, op.InUtc) ∧
    (givingUpMorning.filterMap DeviceOperation.askedAt? ++ [100000]).Pairwise (· ≤ ·) ∧
    (∃ s' t, morningGivenUp.schedule 0 86400 (.ofList [(0, 500), (3600, 0), (86400, 0)]) 100000
        = (.ok, s') ∧ s'.tasks.get? 0 = some t ∧ t.startingTime < 100000 ∧
      morningGivenUp.powerAt 86400 = 0 ∧ s'.powerAt 86400 = 500) ∧
    (∃ s' t, morningGivenUp.schedule 0 129600
        (.ofList [(-43200, 500), (-39600, 0), (0, 0), (43200, 0)]) 100000 = (.ok, s') ∧
      s'.tasks.get? 0 = some t ∧ 100000 ≤ t.startingTime ∧
      morningGivenUp.powerAt 86400 = 0 ∧ s'.powerAt 86400 = 500) := by
  refine ⟨?_, by decide, ⟨_, _, rfl, rfl, by decide +kernel, by decide +kernel, by decide +kernel⟩,
    ⟨_, _, rfl, rfl, by decide +kernel, by decide +kernel, by decide +kernel⟩⟩
  simp [givingUpMorning, DeviceOperation.InUtc]

/-- A profile for what is left of the afternoon leaves the morning alone. -/
theorem past_unchanged_afternoon :
    ∃ s', morningGivenUp.schedule 0 133200 (.ofList [(0, 500), (3600, 0), (39600, 0)]) 100000
        = (.ok, s') ∧ ∀ t, t < 100000 → s'.powerAt t = morningGivenUp.powerAt t := by
  have hok : (morningGivenUp.schedule 0 133200
      (.ofList [(0, 500), (3600, 0), (39600, 0)]) 100000).1 = .ok := by decide +kernel
  obtain ⟨f, task, _, last, hf, htask, -, -, hlast, -, hkept, hstart⟩ :=
    past_unchanged_iff (Prod.ext hok rfl)
  have hid : ∀ f, morningGivenUp.flexibilities.get? 0 = some f → f.taskId = 0 := by
    decide +kernel
  have hlong : ∀ task, morningGivenUp.tasks.get? 0 = some task → task.runningTime = 43200 := by
    decide +kernel
  rw [hid f hf] at htask
  have hend : last = 39600 := (Option.some.inj hlast).symm
  refine ⟨_, Prod.ext hok rfl, hkept (by decide) ((hstart narrow_morningGivenUp).2 ?_)⟩
  rw [hlong task htask, hend]
  decide

end DeviceState
end SiteDispatch
