/-
  SiteDispatch.Proofs.Device.Frame

  What an accepted change leaves alone.

  Outside of the windows that a task had and gets nothing changes before the task. Behind it the
  setpoints that are there stay as well; where nothing has been set since the end of the task,
  the timeline goes on with the value with which the change ends.
-/

import SiteDispatch.Proofs.Device.Windows

namespace SiteDispatch

open PowerProfile

/-! ## Behind a change -/

namespace PowerTimeline

/-- A setpoint is set between `start` and `stop`, both included. -/
def SetBetween (line : PowerTimeline) (start stop : Int) : Prop :=
  ∃ j ∈ line.keys, start ≤ j ∧ j ≤ stop

instance (line : PowerTimeline) (start stop : Int) : Decidable (line.SetBetween start stop) :=
  inferInstanceAs (Decidable (∃ j ∈ line.keys, _))

/-- At `t` the timeline `line'` is back at `line` if that has set something since `since`, and
    has `watts` in force otherwise. -/
def Resumes (line line' : PowerTimeline) (since watts t : Int) : Prop :=
  (line.SetBetween since t → PowerProfile.powerAt line' t = PowerProfile.powerAt line t) ∧
    (¬ line.SetBetween since t → PowerProfile.powerAt line' t = watts)

section Resumes

variable {line line' : PowerTimeline} {p update : PowerProfile} {task : Task}
  {start last first since watts t : Int}

theorem Resumes.powerAt_eq (h : line.Resumes line' since watts t) :
    PowerProfile.powerAt line' t
      = if line.SetBetween since t then PowerProfile.powerAt line t else watts := by
  split
  · rename_i hset
    exact h.1 hset
  · rename_i hnone
    exact h.2 hnone

/-- Timelines with the same entries after `since` differ in what is in force at `since` only. -/
theorem resumes_of_get? (hstays : since ∈ line.keys → line'.get? since = line.get? since)
    (hvalue : since ∉ line.keys → PowerProfile.powerAt line' since = watts)
    (hlater : ∀ j, since < j → line'.get? j = line.get? j) (ht : since ≤ t) :
    line.Resumes line' since watts t := by
  constructor
  · -- From the first setpoint on the entries are the same.
    rintro ⟨k, hk, hsince, hkt⟩
    show (line'.floorValue? t).getD 0 = (line.floorValue? t).getD 0
    rw [OrderedMap.floorValue?_congr_from hk hkt]
    intro j hkj _
    rcases Int.lt_or_eq_of_le (Int.le_trans hsince hkj) with hlt | rfl
    · exact hlater j hlt
    · exact hstays (Int.le_antisymm hkj hsince ▸ hk)
  · -- Without one what is in force at `since` goes on.
    intro hnone
    have hsince : since ∉ line.keys := fun hmem => hnone ⟨since, hmem, Int.le_refl _, ht⟩
    rw [← hvalue hsince]
    refine powerAt_eq_of_no_key ht fun j hj hjt => ?_
    rw [hlater j hj, OrderedMap.get?_eq_none_iff]
    exact fun hmem => hnone ⟨j, hmem, hj.le, hjt⟩

/-- A scheduled profile ends with rest, which gives way to a setpoint at its end. -/
theorem scheduledLine_resumes (line : PowerTimeline) (a : Int)
    (hrests : p.lastEntry? = some (last, 0))
    (ht : start + last ≤ t) :
    line.Resumes (write (clear line a (start + last)) start p
      fun offset => some offset = p.lastKey?) (start + last) 0 t := by
  obtain ⟨hget, hmax⟩ := OrderedMap.lastEntry?_eq_some_iff.1 hrests
  have hlast : p.lastKey? = some last := OrderedMap.lastKey?_eq_of_lastEntry hrests
  have hend : (write (clear line a (start + last)) start p
      fun offset => some offset = p.lastKey?).get? (start + last)
        = (line.get? (start + last)).or (some 0) := by
    rw [get?_write, hget, get?_clear, if_neg (by omega)]
    simp [hlast]
  refine resumes_of_get? (fun hmem => ?_) (fun hmem => ?_) (fun j hj => ?_) ht
  · obtain ⟨v, hv⟩ := OrderedMap.mem_keys_iff_get?.1 hmem
    rw [hend, hv, Option.some_or]
  · apply powerAt_of_get?
    rw [hend, OrderedMap.get?_eq_none_iff.2 hmem, Option.none_or]
  · have hnone : p.get? (j - start) = none :=
      OrderedMap.get?_eq_none_iff.2 fun hmem => hmax _ hmem (by omega)
    rw [get?_write_of_none hnone, get?_clear, if_neg (by omega)]

/-- The last entry of a correction, before the end of the task. -/
theorem get?_correctedLine_last (line : PowerTimeline) (update : PowerProfile) (first : Int)
    (hinside : task.startingTime + last < task.stop) :
    (DeviceState.correctedLine line task update first last).get? (task.startingTime + last)
      = some (task.powerAt last) := by
  refine get?_write_of_some ?_ (decide_eq_false (by omega))
  rw [get?_corrected_update, if_pos rfl]

/-- At the end of the task it gives way to a setpoint that is there. -/
theorem get?_correctedLine_stop (line : PowerTimeline) (update : PowerProfile) (first : Int)
    (hend : task.startingTime + last = task.stop) :
    (DeviceState.correctedLine line task update first last).get? (task.startingTime + last)
      = (line.get? (task.startingTime + last)).or (some (task.powerAt last)) := by
  rw [DeviceState.correctedLine, get?_write, get?_corrected_update, if_pos rfl, get?_clear,
    if_neg (by omega)]
  simp [hend]

/-- A correction ends with the power that the task had at its last instant. If that is the end
    of the task, the power gives way to a setpoint there. -/
theorem correctedLine_resumes (hfirst : update.firstKey? = some first)
    (hlast : update.lastKey? = some last) (hstop : task.startingTime + last ≤ task.stop)
    (ht : task.startingTime + last ≤ t) :
    line.Resumes (DeviceState.correctedLine line task update first last)
      (min (task.startingTime + last + 1) task.stop) (task.powerAt last) t := by
  have hlater : ∀ j, task.startingTime + last < j →
      (DeviceState.correctedLine line task update first last).get? j = line.get? j :=
    fun j hj => get?_correctedLine_of_outside hfirst hlast (.inr hj)
  rcases Int.lt_or_eq_of_le hstop with hinside | hend
  · -- The last entry of the correction lies inside the task.
    have hsince : min (task.startingTime + last + 1) task.stop = task.startingTime + last + 1 := by
      omega
    have hshown := powerAt_of_get? (get?_correctedLine_last line update first hinside)
    rw [hsince]
    rcases Int.lt_or_eq_of_le ht with hbehind | rfl
    · refine resumes_of_get? (fun _ => hlater _ (by omega)) (fun hmem => ?_)
        (fun j hj => hlater j (by omega)) (by omega)
      rw [← hshown]
      refine powerAt_eq_of_no_key (by omega) fun j hj hjt => ?_
      have hj : j = task.startingTime + last + 1 := by omega
      rw [hlater j (by omega), hj, OrderedMap.get?_eq_none_iff]
      exact hmem
    · -- This is the instant of the last entry itself.
      exact ⟨fun ⟨j, _, _, _⟩ => absurd ht (by omega), fun _ => hshown⟩
  · have hsince : min (task.startingTime + last + 1) task.stop = task.startingTime + last := by
      omega
    have hshown := get?_correctedLine_stop line update first hend
    rw [hsince]
    refine resumes_of_get? (fun hmem => ?_) (fun hmem => ?_) hlater (by omega)
    · obtain ⟨v, hv⟩ := OrderedMap.mem_keys_iff_get?.1 hmem
      rw [hshown, hv, Option.some_or]
    · apply powerAt_of_get?
      rw [hshown, OrderedMap.get?_eq_none_iff.2 hmem, Option.none_or]

/-- A task that is returned to rest sets its start to 0 W, even if it ends there. -/
theorem restedLine_resumes (line : PowerTimeline) {stop : Int} (hstart : start ≤ t)
    (ht : stop ≤ t) :
    line.Resumes ((clear line start stop).insert start 0) (max stop (start + 1)) 0 t := by
  have hlater : ∀ j, start < j → stop ≤ j →
      ((clear line start stop).insert start 0).get? j = line.get? j := by
    intro j hj hstop
    rw [OrderedMap.get?_insert_of_ne (by omega), get?_clear, if_neg (by omega)]
  have hshown : ∀ u, start ≤ u → (∀ j, start < j → stop ≤ j → j ≤ u → j ∉ line.keys) →
      PowerProfile.powerAt ((clear line start stop).insert start 0) u = 0 := by
    intro u hu hnone
    rw [powerAt_eq_of_no_key hu fun j hj hju => ?_]
    · exact powerAt_of_get? (OrderedMap.get?_insert_self _ _ _)
    · by_cases hstop : stop ≤ j
      · rw [hlater j hj hstop, OrderedMap.get?_eq_none_iff]
        exact hnone j hj hstop hju
      · rw [OrderedMap.get?_insert_of_ne (by omega), get?_clear, if_pos (by omega)]
  rcases Int.lt_or_le t (max stop (start + 1)) with hbefore | hsince
  · -- The task ends where it starts, and this is the instant.
    refine ⟨fun ⟨j, _, _, _⟩ => absurd hbefore (by omega), fun _ => ?_⟩
    exact hshown t hstart fun j _ _ _ => absurd hbefore (by omega)
  · refine resumes_of_get? (fun _ => hlater _ (by omega) (by omega)) (fun hmem => ?_)
      (fun j hj => hlater j (by omega) (by omega)) hsince
    refine hshown _ (by omega) fun j hj hstop hjt => ?_
    have hj : j = max stop (start + 1) := by omega
    rw [hj]
    exact hmem

end Resumes

end PowerTimeline

namespace DeviceState

/-! ## Outside both windows -/

/-- What a change leaves alone at the instants that lie neither in the window of `task` nor in
    that of `task'`, which it becomes: everything before its start, and whatever has been set
    since `since` behind it. -/
def KeepsOutside (s s' : DeviceState) (task task' : Task) (since watts : Int) : Prop :=
  ∀ t, ¬ task.isRunning t → ¬ task'.isRunning t →
    (t < task'.startingTime → s'.powerAt t = s.powerAt t) ∧
    (task'.startingTime ≤ t →
      PowerTimeline.Resumes s.scheduledPower s'.scheduledPower since watts t)

theorem KeepsOutside.before {s s' : DeviceState} {task task' : Task} {since watts t : Int}
    (h : KeepsOutside s s' task task' since watts) (ht : t < task.startingTime)
    (ht' : t < task'.startingTime) : s'.powerAt t = s.powerAt t := by
  refine (h t ?_ ?_).1 ht'
  · rw [Task.isRunning_iff]
    omega
  · rw [Task.isRunning_iff]
    omega

theorem KeepsOutside.behind {s s' : DeviceState} {task task' : Task} {since watts t : Int}
    (h : KeepsOutside s s' task task' since watts) (ht : task.stop ≤ t) (ht' : task'.stop ≤ t)
    (hstart : task'.startingTime ≤ t) :
    PowerTimeline.Resumes s.scheduledPower s'.scheduledPower since watts t := by
  refine (h t ?_ ?_).2 hstart
  · rw [Task.isRunning_iff]
    omega
  · rw [Task.isRunning_iff]
    omega

section Outside

variable {s s' : DeviceState} {f : Flexibility} {task : Task}
  {id startingTime now first last : Int} {power update : PowerProfile}

/-- The last offset of a fitting profile is the length of the window it gets. -/
theorem withScheduled_keepsOutside (hfits : f.Fits startingTime power)
    (hends : f.stoppingTime = ⟨task.stop, task.stop⟩) (hkeys : ∀ k ∈ power.keys, 0 ≤ k) :
    KeepsOutside s (s.withScheduled f task startingTime power) task
      (rescheduled task startingTime power) task.stop 0 := by
  have hentry := hfits.lastEntry? hends
  have hrests : OrderedMap.lastEntry? (PowerProfile.compress power (task.stop - startingTime))
      = some (task.stop - startingTime, 0) := PowerProfile.lastEntry?_compress hentry
  have hlast : power.lastKey? = some (task.stop - startingTime) :=
    OrderedMap.lastKey?_eq_of_lastEntry hentry
  have hlength := hfits.last_nonneg hentry
  have hstop : startingTime + (task.stop - startingTime) = task.stop := by omega
  intro t hbefore hafter
  rw [Task.isRunning_iff] at hbefore hafter
  rw [(hfits.rescheduled hends).2] at hafter
  simp only [startingTime_rescheduled, powerAt, withScheduled, power_rescheduled hlast] at hafter ⊢
  constructor
  · intro ht
    refine powerAt_scheduled_of_lt (fun k hk => hkeys k (PowerProfile.mem_keys_of_compress hk)) ?_ ht
    omega
  · intro ht
    have hresumes := PowerTimeline.scheduledLine_resumes s.scheduledPower task.startingTime hrests
      (show startingTime + (task.stop - startingTime) ≤ t by omega)
    rwa [hstop] at hresumes

/-- A correction ends with the task at the latest. -/
theorem withAdapted_keepsOutside (hfirst : update.firstKey? = some first)
    (hlast : update.lastKey? = some last)
    (hfits : f.Fits task.startingTime (corrected task update first last).2)
    (hends : f.stoppingTime = ⟨task.stop, task.stop⟩) (hkeys : ∀ k ∈ update.keys, 0 ≤ k) :
    KeepsOutside s (s.withAdapted f task update first last) task
      (Task.compress { task with power := (corrected task update first last).2 })
      (min (task.startingTime + last + 1) task.stop) (task.powerAt last) := by
  have hfirst0 : 0 ≤ first := hkeys first (OrderedMap.firstKey?_eq_some_iff.1 hfirst).1
  have hlength := last_le_of_lastEntry? (hfits.lastEntry? hends)
  intro t hbefore _
  rw [Task.isRunning_iff] at hbefore
  constructor
  · intro ht
    apply powerAt_congr
    intro j hj
    refine get?_correctedLine_of_outside hfirst hlast (.inl ?_)
    have ht : t < task.startingTime := ht
    omega
  · intro ht
    have ht : task.startingTime ≤ t := ht
    exact PowerTimeline.correctedLine_resumes hfirst hlast (by omega) (by omega)

theorem withRested_keepsOutside :
    KeepsOutside s (s.withRested f task) task
      { task with power := PowerProfile.idle task.runningTime }
      (max task.stop (task.startingTime + 1)) 0 := by
  intro t hbefore _
  rw [Task.isRunning_iff] at hbefore
  constructor
  · intro ht
    apply powerAt_congr
    intro j hj
    have ht : t < task.startingTime := ht
    show ((PowerTimeline.clear s.scheduledPower task.startingTime task.stop).insert
      task.startingTime 0).get? j = s.scheduledPower.get? j
    rw [OrderedMap.get?_insert_of_ne (by omega), get?_clear, if_neg (by omega)]
  · intro ht
    have ht : task.startingTime ≤ t := ht
    exact PowerTimeline.restedLine_resumes s.scheduledPower ht (by omega)

end Outside

/-- What is in force outside of the windows of a task, the one it has and the one it gets,
    changes behind it at most: with a profile or a correction whose offsets are not negative and
    with the return to rest, everything before the new start stays, and so does everything
    behind that has been set since the end. Only as long as nothing has been set since, another
    value is in force: 0 W after a profile and after the return to rest, and after a correction
    the power that the task had where the correction ends. -/
theorem outside_unchanged_once_set {s : DeviceState} (hs : Reachable DeviceOperation.Narrow s)
    (id : Int) :
    (∀ startingTime power now s', (∀ k ∈ power.keys, 0 ≤ k) →
      s.schedule id startingTime power now = (.ok, s') →
      ∃ task task', s.tasks.get? id = some task ∧ s'.tasks.get? id = some task' ∧
        KeepsOutside s s' task task' task.stop 0) ∧
    (∀ update s', (∀ k ∈ update.keys, 0 ≤ k) → s.adapt id update = (.ok, s') →
      ∃ task task' last, s.tasks.get? id = some task ∧ s'.tasks.get? id = some task' ∧
        update.lastKey? = some last ∧
        KeepsOutside s s' task task' (min (task.startingTime + last + 1) task.stop)
          (task.powerAt last)) ∧
    (∀ now s', s.unschedule id now = (.ok, s') →
      ∃ task task', s.tasks.get? id = some task ∧ s'.tasks.get? id = some task' ∧
        KeepsOutside s s' task task' (max task.stop (task.startingTime + 1)) 0) := by
  refine ⟨fun startingTime power now s' hkeys hok => ?_, fun update s' hkeys hok => ?_,
    fun now s' hok => ?_⟩
  · rcases s.schedule_cases id startingTime power now with
      ⟨hrefused, -⟩ | ⟨f, task, hf, htask, -, hfits, heq⟩
    · exact absurd (by rw [hok]) hrefused
    · obtain ⟨hid, hends⟩ := hs.ends_of_flexibility hf htask
      obtain rfl : s' = _ := (Prod.mk.inj (hok.symm.trans heq)).2
      refine ⟨task, rescheduled task startingTime power, hid ▸ htask, ?_,
        withScheduled_keepsOutside hfits hends hkeys⟩
      rw [← hid]
      exact OrderedMap.get?_insert_self _ _ _
  · rcases s.adapt_cases id update with
      ⟨hrefused, -⟩ | ⟨f, task, first, last, hf, -, htask, hfirst, hlast, hfits, heq⟩
    · exact absurd (by rw [hok]) hrefused
    · obtain ⟨hid, hends⟩ := hs.ends_of_flexibility hf htask
      obtain rfl : s' = _ := (Prod.mk.inj (hok.symm.trans heq)).2
      refine ⟨task, Task.compress { task with power := (corrected task update first last).2 }, last,
        hid ▸ htask, ?_, hlast, withAdapted_keepsOutside hfirst hlast hfits hends hkeys⟩
      rw [← hid]
      exact OrderedMap.get?_insert_self _ _ _
  · rcases s.unschedule_cases id now with ⟨hrefused, -⟩ | ⟨f, task, hf, htask, heq⟩
    · exact absurd (by rw [hok]) hrefused
    · obtain ⟨hid, -⟩ := hs.ends_of_flexibility hf htask
      obtain rfl : s' = _ := (Prod.mk.inj (hok.symm.trans heq)).2
      refine ⟨task, { task with power := PowerProfile.idle task.runningTime }, hid ▸ htask, ?_,
        withRested_keepsOutside⟩
      rw [← hid]
      exact OrderedMap.get?_insert_self _ _ _

/-- Whatever the second day is asked for, the first stays as it is, and behind a correction of
    its first minutes the second day ends with rest. -/
theorem outside_unchanged_secondDay :
    (∃ s' : DeviceState,
      twoWholeDays.schedule 1 129600 (.ofList [(0, 500), (3600, 0), (43200, 0)]) 0 = (.ok, s') ∧
      ∀ t, t < 86400 → s'.powerAt t = twoWholeDays.powerAt t) ∧
    (∃ s' : DeviceState,
      twoWholeDays.adapt 1 (.ofList [(0, 500), (600, 500)]) = (.ok, s') ∧
      ∀ t, 172800 ≤ t → s'.powerAt t = 0) ∧
    (∃ s' : DeviceState, twoWholeDays.unschedule 1 0 = (.ok, s') ∧
      ∀ t, t < 86400 → s'.powerAt t = twoWholeDays.powerAt t) := by
  obtain ⟨hschedule, hadapt, hunschedule⟩ :=
    outside_unchanged_once_set narrow_twoWholeDays 1
  have hwindow : ∀ task, twoWholeDays.tasks.get? 1 = some task →
      task.startingTime = 86400 ∧ task.stop = 172800 ∧ task.powerAt 600 = 0 := by
    decide +kernel
  refine ⟨?_, ?_, ?_⟩
  · have hok : (twoWholeDays.schedule 1 129600
        (.ofList [(0, 500), (3600, 0), (43200, 0)]) 0).1 = .ok := by decide +kernel
    obtain ⟨task, task', htask, htask', hkeeps⟩ :=
      hschedule _ _ _ _ (by decide) (Prod.ext hok rfl)
    have hlater : ∀ task', (twoWholeDays.schedule 1 129600
        (.ofList [(0, 500), (3600, 0), (43200, 0)]) 0).2.tasks.get? 1 = some task' →
        task'.startingTime = 129600 := by decide +kernel
    refine ⟨_, Prod.ext hok rfl, fun t ht => hkeeps.before ?_ ?_⟩
    · rw [(hwindow task htask).1]
      exact ht
    · rw [hlater task' htask']
      omega
  · have hok : (twoWholeDays.adapt 1 (.ofList [(0, 500), (600, 500)])).1 = .ok := by
      decide +kernel
    obtain ⟨task, task', last, htask, htask', hlast, hkeeps⟩ :=
      hadapt _ _ (by decide) (Prod.ext hok rfl)
    have hsame : ∀ task', (twoWholeDays.adapt 1
        (.ofList [(0, 500), (600, 500)])).2.tasks.get? 1 = some task' →
        task'.startingTime = 86400 ∧ task'.stop = 172800 := by decide +kernel
    obtain ⟨hstart, hstop, hpower⟩ := hwindow task htask
    obtain ⟨hstart', hstop'⟩ := hsame task' htask'
    obtain rfl : last = 600 := (Option.some.inj hlast).symm
    refine ⟨_, Prod.ext hok rfl, fun t ht => ?_⟩
    have hresumes := hkeeps.behind (t := t) (by omega) (by omega) (by omega)
    rw [hpower, hstart, hstop] at hresumes
    -- Both days begin with a setpoint, and none is set since.
    have hkeys : ∀ j ∈ twoWholeDays.scheduledPower.keys, j ≤ 86400 := by decide +kernel
    refine hresumes.2 ?_
    rintro ⟨j, hj, hsince, -⟩
    have := hkeys j hj
    omega
  · have hok : (twoWholeDays.unschedule 1 0).1 = .ok := by decide +kernel
    obtain ⟨task, task', htask, htask', hkeeps⟩ := hunschedule _ _ (Prod.ext hok rfl)
    have hsame : ∀ task', (twoWholeDays.unschedule 1 0).2.tasks.get? 1 = some task' →
        task'.startingTime = 86400 := by decide +kernel
    refine ⟨_, Prod.ext hok rfl, fun t ht => hkeeps.before ?_ ?_⟩
    · rw [(hwindow task htask).1]
      exact ht
    · rw [hsame task' htask']
      exact ht

/-- The second day charges slowly; of the first nothing is left but its end. -/
def firstDayEmptied : DeviceState :=
  [.schedule 1 86400 (.ofList [(0, 20), (86400, 0)]) 0,
   .schedule 0 86400 (.ofList [(0, 0)]) 0].foldl DeviceOperation.perform twoWholeDays

/-- What an accepted profile has before the start of its task is written into the day before,
    although writes are meant for the window of the task. A task that is returned to rest gets
    its 0 W at the start even if it is empty: that it overwrites a setpoint of the day after it
    then is how the return to rest is meant. -/
theorem outside_setpoint_changes :
    (∃ s s' : DeviceState, ∃ task task' : Task, ∃ t, Reachable (fun _ => True) s ∧
      s.unschedule 0 0 = (.ok, s') ∧ s.tasks.get? 0 = some task ∧ s'.tasks.get? 0 = some task' ∧
      ¬ task.isRunning t ∧ ¬ task'.isRunning t ∧ s'.powerAt t ≠ s.powerAt t) ∧
    ∃ s s' : DeviceState, ∃ power : PowerProfile, ∃ task task' : Task, ∃ t,
      Reachable (fun _ => True) s ∧ s.schedule 1 86400 power 0 = (.ok, s') ∧
      s.tasks.get? 1 = some task ∧ s'.tasks.get? 1 = some task' ∧
      ¬ task.isRunning t ∧ ¬ task'.isRunning t ∧ s'.powerAt t ≠ s.powerAt t := by
  have hreachable : Reachable (fun _ => True) firstDayEmptied :=
    (narrow_twoWholeDays.mono fun _ _ => trivial).foldl _ fun _ _ => trivial
  constructor
  · exact ⟨firstDayEmptied, _, _, _, 86400, hreachable, rfl, rfl, rfl, by decide, by decide,
      by decide +kernel⟩
  · exact ⟨firstDayEmptied, _, .ofList [(-3600, 5000), (0, 20), (86400, 0)], _, _, 82800,
      hreachable, rfl, rfl, rfl, by decide, by decide, by decide +kernel⟩

end DeviceState
end SiteDispatch
