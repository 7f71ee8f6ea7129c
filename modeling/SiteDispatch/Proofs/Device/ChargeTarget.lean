/-
  SiteDispatch.Proofs.Device.ChargeTarget

  What a commit leaves of the power that drives a device towards a charge target.

  Up to the time of an active target the listed flexibilities offer no power, and a profile that
  fits them rests until then. It is written all the same, and rest takes the place of whatever the
  timeline had in the stretch that the commit replaces.
-/

import SiteDispatch.Proofs.Device.Frame
import SiteDispatch.Proofs.Device.Limits

namespace SiteDispatch

open PowerProfile

namespace DeviceState

/-! ## Rest before the target -/

section Blocked

variable {s : DeviceState} {now stored : Int} {c : DeviceConfig} {f : Flexibility}
  {task : Task} {startingTime first last t : Int} {power update : PowerProfile}

/-- A profile that fits rests until the time of the target, measured from the start that the task
    had when the offer was made. -/
theorem powerAt_eq_zero_of_blocked (hoffer : Refreshed s now stored c task f)
    (hactive : s.socTargetActive now = true) (hfits : f.Fits startingTime power) (h0 : 0 ≤ t)
    (htarget : task.startingTime + t < s.targetSocTime)
    (hstop : task.startingTime + t < task.stop) : PowerProfile.powerAt power t = 0 := by
  obtain ⟨-, hpower⟩ := hoffer.blocked hactive (by omega)
  rw [Task.stop] at hstop
  exact powerAt_eq_zero_of_fits hpower hfits h0 (by omega)

/-- Before the target a profile that does not start earlier than the task did brings rest from
    its start on, and what was in force before the task goes on until then. -/
theorem powerAt_withScheduled_of_blocked (hoffer : Refreshed s now stored c task f)
    (hactive : s.socTargetActive now = true) (hfits : f.Fits startingTime power)
    (hends : f.stoppingTime = ⟨task.stop, task.stop⟩) (hkeys : ∀ k ∈ power.keys, 0 ≤ k)
    (hlater : task.startingTime ≤ startingTime) (ht : t < s.targetSocTime) :
    (s.withScheduled f task startingTime power).powerAt t
      = if t < task.startingTime ∨ s.scheduledPower.SetBetween task.stop t then s.powerAt t
        else if t < startingTime then s.powerAt (task.startingTime - 1) else 0 := by
  have hentry := hfits.lastEntry? hends
  have hlength := hfits.last_nonneg hentry
  have hlast : power.lastKey? = some (task.stop - startingTime) :=
    OrderedMap.lastKey?_eq_of_lastEntry hentry
  have hkeeps := withScheduled_keepsOutside (s := s) hfits hends hkeys
  rcases lt_or_ge t task.startingTime with hbefore | hfrom
  · -- The commit begins with the window that the task had.
    rw [if_pos (.inl hbefore)]
    exact hkeeps.before hbefore (by rw [startingTime_rescheduled]; omega)
  rcases lt_or_ge t task.stop with hinside | hbehind
  · have hnone : ¬ s.scheduledPower.SetBetween task.stop t := by
      rintro ⟨j, -, hj, hjt⟩
      omega
    rw [if_neg (by rw [not_or]; exact ⟨by omega, hnone⟩)]
    rcases lt_or_ge t startingTime with hgap | hruns
    · rw [if_pos hgap]
      refine powerAt_scheduled_of_gap (fun k hk => hkeys k ?_) hfrom hgap hinside
      rw [power_rescheduled hlast] at hk
      exact PowerProfile.mem_keys_of_compress hk
    · -- The new window lies inside the old one, so that nothing is left in its way.
      rw [if_neg (by omega)]
      have hshown := (withScheduled_shows_iff s task hfits hlast).2 (by
        rintro time watts ⟨-, hge, hlt, hrunning, -⟩
        rw [Task.isRunning_iff] at hrunning
        exact absurd ⟨by omega, by omega⟩ hrunning) t hruns (by omega)
      rw [hshown]
      exact powerAt_eq_zero_of_blocked hoffer hactive hfits (by omega) (by omega) (by omega)
  · have hresumes := hkeeps.behind hbehind (by rwa [(hfits.rescheduled hends).2])
      (by rw [startingTime_rescheduled]; omega)
    rw [powerAt, hresumes.powerAt_eq]
    simp only [show ¬ t < task.startingTime by omega, show ¬ t < startingTime by omega, false_or,
      if_false]
    rfl

/-- Before the target a correction brings rest from its first key on. -/
theorem powerAt_withAdapted_of_blocked (hoffer : Refreshed s now stored c task f)
    (hactive : s.socTargetActive now = true) (hfirst : update.firstKey? = some first)
    (hlast : update.lastKey? = some last)
    (hfits : f.Fits task.startingTime (corrected task update first last).2)
    (hends : f.stoppingTime = ⟨task.stop, task.stop⟩) (hkeys : ∀ k ∈ update.keys, 0 ≤ k)
    (ht : t < s.targetSocTime) :
    (s.withAdapted f task update first last).powerAt t
      = if t < task.startingTime + first ∨ s.scheduledPower.SetBetween
            (min (task.startingTime + last + 1) task.stop) t then s.powerAt t else 0 := by
  have hfirst0 : 0 ≤ first := hkeys first (OrderedMap.firstKey?_eq_some_iff.1 hfirst).1
  have hlast0 : 0 ≤ last := hkeys last (OrderedMap.lastKey?_eq_some_iff.1 hlast).1
  have hentry := hfits.lastEntry? hends
  have hlength := last_le_of_lastEntry? hentry
  rcases lt_or_ge t (task.startingTime + first) with hbefore | hfrom
  · rw [if_pos (.inl hbefore)]
    exact powerAt_congr fun j hj => get?_correctedLine_of_outside hfirst hlast (.inl (by omega))
  have hoffset : task.startingTime + (t - task.startingTime) = t := by omega
  rcases lt_or_ge t (task.startingTime + last) with hinside | hbehind
  · -- The timeline shows the corrected profile.
    have hnone : ¬ s.scheduledPower.SetBetween
        (min (task.startingTime + last + 1) task.stop) t := by
      rintro ⟨j, -, hj, hjt⟩
      omega
    have hshown : PowerProfile.powerAt (correctedLine s.scheduledPower task update first last)
        (task.startingTime + (t - task.startingTime))
          = PowerProfile.powerAt (corrected task update first last).2 (t - task.startingTime) :=
      powerAt_correctedLine_of_inside hfirst (by omega) (by omega)
    rw [hoffset, powerAt_eq_zero_of_blocked hoffer hactive hfits (by omega) (by omega) (by omega)]
      at hshown
    rw [if_neg (by rw [not_or]; exact ⟨by omega, hnone⟩)]
    exact hshown
  · -- The correction ends with rest, whether that is blocked or the end of the task.
    have hrest : task.powerAt last = 0 := by
      rcases Int.lt_or_eq_of_le hlength with hearly | rfl
      · rw [Task.powerAt, ← powerAt_corrected_of_last_le hlast hfirst (Int.le_refl last)]
        exact powerAt_eq_zero_of_blocked hoffer hactive hfits (by omega) (by omega) (by omega)
      · exact powerAt_last_of_lastEntry? hentry
    have hresumes : PowerTimeline.Resumes s.scheduledPower
        (correctedLine s.scheduledPower task update first last)
        (min (task.startingTime + last + 1) task.stop) (task.powerAt last) t :=
      PowerTimeline.correctedLine_resumes hfirst hlast (by omega) hbehind
    rw [hrest] at hresumes
    refine Eq.trans hresumes.powerAt_eq ?_
    simp only [show ¬ t < task.startingTime + first by omega, false_or]
    rfl

end Blocked

/-! ## Commits while a target is active -/

/-- Until an active charge target a commit for a listed flexibility brings rest. Before the stretch
    that it replaces the power stays as it is, and so it does behind that wherever a setpoint
    follows. In the stretch the device rests: from its start on with a profile that is scheduled no
    earlier than the task was, from its first key on with a correction. -/
theorem commit_rests_until_target {s s' : DeviceState} (hs : Reachable DeviceOperation.Narrow s)
    {device : DeviceId} {start stop now stored : Int} {zone : Zone} {c : DeviceConfig}
    {summary : ScheduleSummary} (hzone : zone.Narrow)
    (hget : s.getSchedule device start stop now stored zone c = .ok (summary, s'))
    (hactive : s.socTargetActive now = true) {id : Int} {task : Task} (hid : id ∈ summary.taskIds)
    (htask : s'.tasks.get? id = some task) :
    (∀ startingTime power time s'', (∀ k ∈ power.keys, 0 ≤ k) → task.startingTime ≤ startingTime →
      s'.schedule id startingTime power time = (.ok, s'') →
      ∀ t, t < s.targetSocTime → s''.powerAt t
        = if t < task.startingTime ∨ s'.scheduledPower.SetBetween task.stop t then s'.powerAt t
          else if t < startingTime then s'.powerAt (task.startingTime - 1) else 0) ∧
    (∀ update s'', (∀ k ∈ update.keys, 0 ≤ k) → s'.adapt id update = (.ok, s'') →
      ∃ first last, update.firstKey? = some first ∧ update.lastKey? = some last ∧
        ∀ t, t < s.targetSocTime → s''.powerAt t
          = if t < task.startingTime + first ∨ s'.scheduledPower.SetBetween
                (min (task.startingTime + last + 1) task.stop) t then s'.powerAt t else 0) := by
  have hallowed : DeviceOperation.Narrow (.getSchedule device start stop now stored zone c) := hzone
  have hholds := hs.holds endingInvariant
  have hreachable : Reachable DeviceOperation.Narrow s' := by
    have hstep := hs.step hallowed
    rwa [DeviceOperation.perform, hget] at hstep
  -- The answer leaves the target as it is, and the offer keeps clear of it.
  obtain ⟨hsoc, htime⟩ := hholds.target_of_getSchedule endingInvariant hallowed hget
  have hactive' : s'.socTargetActive now = true := by
    rwa [socTargetActive, hsoc, htime]
  have hoffer : ∀ f, s'.flexibilities.get? id = some f → Refreshed s' now stored c task f :=
    fun f hf => hholds.refreshed endingInvariant hallowed hget hid htask hf
  refine ⟨fun startingTime power time s'' hkeys hlater hok t ht => ?_,
    fun update s'' hkeys hok => ?_⟩
  · rcases s'.schedule_cases id startingTime power time with
      ⟨hrefused, -⟩ | ⟨f, task', hf, htask', -, hfits, heq⟩
    · exact absurd (by rw [hok]) hrefused
    · obtain ⟨hassigned, hends⟩ := hreachable.ends_of_flexibility hf htask'
      rw [hassigned, htask, Option.some.injEq] at htask'
      subst htask'
      obtain rfl : s'' = _ := (Prod.mk.inj (hok.symm.trans heq)).2
      exact powerAt_withScheduled_of_blocked (hoffer f hf) hactive' hfits hends hkeys hlater
        (htime ▸ ht)
  · rcases s'.adapt_cases id update with
      ⟨hrefused, -⟩ | ⟨f, task', first, last, hf, -, htask', hfirst, hlast, hfits, heq⟩
    · exact absurd (by rw [hok]) hrefused
    · obtain ⟨hassigned, hends⟩ := hreachable.ends_of_flexibility hf htask'
      rw [hassigned, htask, Option.some.injEq] at htask'
      subst htask'
      obtain rfl : s'' = _ := (Prod.mk.inj (hok.symm.trans heq)).2
      exact ⟨first, last, hfirst, hlast, fun t ht => powerAt_withAdapted_of_blocked (hoffer f hf)
        hactive' hfirst hlast hfits hends hkeys (htime ▸ ht)⟩

/-- The first day charges slowly, the second is left to its afternoon, and a charge target is
    noted for an instant of that. -/
def targetNoted : DeviceState :=
  [.adapt 0 (.ofList [(0, 20), (86400, 0)]),
   .schedule 1 129600 (.ofList [(0, 0), (43200, 0)]) 0,
   .applyTargetSoc 80 140000 140000 50.0 smallBattery].foldl DeviceOperation.perform twoWholeDays

theorem narrow_targetNoted : Reachable DeviceOperation.Narrow targetNoted := by
  refine narrow_twoWholeDays.foldl _ fun op hop => ?_
  simp only [List.mem_cons, List.not_mem_nil, or_false] at hop
  rcases hop with rfl | rfl | rfl <;> exact trivial

/-- What is offered of both days. -/
def targetOffered : DeviceState := DeviceOperation.perform targetNoted
  (.getSchedule ⟨1⟩ 80000 130000 0 3000 Zone.utc smallBattery)

theorem getSchedule_targetNoted :
    ∃ summary, targetNoted.getSchedule ⟨1⟩ 80000 130000 0 3000 Zone.utc smallBattery
        = .ok (summary, targetOffered) ∧ summary.taskIds = [0, 1] :=
  ⟨_, rfl, by decide +kernel⟩

/-- When the first day is returned to rest, so is the device, whatever drives it. When the second
    is put off, the device is driven on until then and rests up to the target. -/
theorem commit_rests_until_target_bothDays :
    (∃ s'', targetOffered.adapt 0 (.ofList [(0, 0), (86400, 0)]) = (.ok, s'') ∧
      ∀ t, 0 ≤ t → t < 86400 → s''.powerAt t = 0) ∧
    ∃ s'', targetOffered.schedule 1 136800 (.ofList [(0, 0), (36000, 0)]) 0 = (.ok, s'') ∧
      (∀ t, 129600 ≤ t → t < 136800 → s''.powerAt t = 20) ∧
      ∀ t, 136800 ≤ t → t < 140000 → s''.powerAt t = 0 := by
  obtain ⟨summary, hget, hids⟩ := getSchedule_targetNoted
  have hactive : targetNoted.socTargetActive 0 = true := by decide +kernel
  have htime : targetNoted.targetSocTime = 140000 := by decide +kernel
  have hutc : Zone.Narrow Zone.utc := Zone.narrow_of_mem _ List.mem_cons_self
  have hfirstDay : ∀ task, targetOffered.tasks.get? 0 = some task →
      task.startingTime = 0 ∧ task.stop = 86400 := by decide +kernel
  have hsecondDay : ∀ task, targetOffered.tasks.get? 1 = some task →
      task.startingTime = 129600 ∧ task.stop = 172800 := by decide +kernel
  constructor
  · obtain ⟨task, htask⟩ := Option.isSome_iff_exists.1
      (show (targetOffered.tasks.get? 0).isSome = true by decide +kernel)
    obtain ⟨hstart, hstop⟩ := hfirstDay task htask
    have hlisted : 0 ∈ summary.taskIds := by
      rw [hids]
      decide
    have hok : (targetOffered.adapt 0 (.ofList [(0, 0), (86400, 0)])).1 = .ok := by decide +kernel
    obtain ⟨first, last, hfirst, hlast, hpower⟩ := (commit_rests_until_target narrow_targetNoted
      hutc hget hactive hlisted htask).2 _ _ (by decide) (Prod.ext hok rfl)
    obtain rfl : first = 0 := (Option.some.inj hfirst).symm
    obtain rfl : last = 86400 := (Option.some.inj hlast).symm
    refine ⟨_, Prod.ext hok rfl, fun t h0 ht => ?_⟩
    rw [hpower t (by omega), hstart, hstop, if_neg]
    rintro (hbefore | ⟨j, -, hj, hjt⟩)
    · omega
    · omega
  · obtain ⟨task, htask⟩ := Option.isSome_iff_exists.1
      (show (targetOffered.tasks.get? 1).isSome = true by decide +kernel)
    obtain ⟨hstart, hstop⟩ := hsecondDay task htask
    have hlisted : 1 ∈ summary.taskIds := by
      rw [hids]
      decide
    have hok : (targetOffered.schedule 1 136800 (.ofList [(0, 0), (36000, 0)]) 0).1 = .ok := by
      decide +kernel
    have hpower := (commit_rests_until_target narrow_targetNoted hutc hget hactive hlisted htask).1
      _ _ _ _ (by decide) (by omega) (Prod.ext hok rfl)
    have hrests : ∀ t, t < 140000 → 129600 ≤ t →
        ¬ (t < 129600 ∨ targetOffered.scheduledPower.SetBetween 172800 t) := by
      rintro t ht hfrom (hbefore | ⟨j, -, hj, hjt⟩)
      · omega
      · omega
    refine ⟨_, Prod.ext hok rfl, fun t hfrom ht => ?_, fun t hfrom ht => ?_⟩
    · rw [hpower t (by omega), hstart, hstop, if_neg (hrests t (by omega) hfrom), if_pos ht]
      decide +kernel
    · rw [hpower t (by omega), hstart, hstop, if_neg (hrests t ht (by omega)), if_neg (by omega)]

/-- A profile that rests throughout takes the place of the power that drives the device. What is
    blocked is measured from the old start of a task, so that one that is moved to an earlier start
    brings power of its own before the target. -/
theorem commits_overwrite_target :
    ∃ s s' : DeviceState, ∃ summary, Reachable (fun _ => True) s ∧ s.socTargetActive 0 = true ∧
      s.getSchedule ⟨1⟩ 80000 130000 0 3000 Zone.utc smallBattery = .ok (summary, s') ∧
      (∃ update s'' t, 0 ∈ summary.taskIds ∧ (∀ k ∈ update.keys, 0 ≤ k) ∧
        s'.adapt 0 update = (.ok, s'') ∧ 0 ≤ t ∧ t < s.targetSocTime ∧
        s'.powerAt t = 20 ∧ s''.powerAt t = 0) ∧
      ∃ startingTime power s'' t, 1 ∈ summary.taskIds ∧ (∀ k ∈ power.keys, 0 ≤ k) ∧
        s'.schedule 1 startingTime power 0 = (.ok, s'') ∧ 0 ≤ t ∧ t < s.targetSocTime ∧
        s'.powerAt t = 20 ∧ s''.powerAt t = 40 := by
  obtain ⟨summary, hget, hids⟩ := getSchedule_targetNoted
  refine ⟨targetNoted, targetOffered, summary, narrow_targetNoted.mono fun _ _ => trivial,
    by decide +kernel, hget, ?_, ?_⟩
  · refine ⟨.ofList [(0, 0), (86400, 0)], _, 0, by rw [hids]; decide, by decide,
      Prod.ext (by decide +kernel) rfl, by decide, by decide +kernel, by decide +kernel,
      by decide +kernel⟩
  · refine ⟨86400, .ofList [(0, 0), (10400, 40), (86400, 0)], _, 96800, by rw [hids]; decide,
      by decide, Prod.ext (by decide +kernel) rfl, by decide, by decide +kernel, by decide +kernel,
      by decide +kernel⟩

end DeviceState
end SiteDispatch
