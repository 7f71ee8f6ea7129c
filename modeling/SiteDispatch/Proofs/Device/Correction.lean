/-
  SiteDispatch.Proofs.Device.Correction

  A correction does the same to a task and to the timeline.

  The profile loses the entries from the first to the last key of the update and is brought
  into its shortest form; the timeline is cleared up to the last key and written over, and
  behind the end of the task entries give way to what is there. Between the first and the last
  key both show the update nevertheless, and everywhere else what they showed before.
-/

import SiteDispatch.Proofs.Device.Tracking

namespace SiteDispatch
namespace DeviceState

/-- What a correction from `first` to `last` makes of the timeline of `s` and of the task that
    it was made for, which becomes `task'`. -/
structure CorrectedAlike (s s' : DeviceState) (task task' : Task) (update : PowerProfile)
    (first last : Int) : Prop where
  start : task'.startingTime = task.startingTime
  length : task'.runningTime = task.runningTime
  shows : PowerTimeline.Shows s'.scheduledPower task'
  inside : ∀ i, first ≤ i → i < last →
    task'.powerAt i = PowerProfile.powerAt update i ∧
      s'.powerAt (task.startingTime + i) = PowerProfile.powerAt update i
  outside : ∀ i, 0 ≤ i → i < task.runningTime → i < first ∨ last ≤ i →
    task'.powerAt i = task.powerAt i ∧
      s'.powerAt (task.startingTime + i) = s.powerAt (task.startingTime + i)
  before : ∀ t, t < task.startingTime → s'.powerAt t = s.powerAt t
  behind : last ≤ task.runningTime → task.stop ∈ s.scheduledPower.keys →
    ∀ t, task.stop ≤ t → s'.powerAt t = s.powerAt t

section Correction

variable {s s' : DeviceState} {f : Flexibility} {task : Task} {update : PowerProfile}
  {id first last : Int}

/-- The profile of a corrected task, in its shortest form or not, is that of the correction. -/
theorem powerAt_compress_corrected (task : Task) (update : PowerProfile) (first last i : Int) :
    (Task.compress { task with power := (corrected task update first last).2 }).powerAt i
      = PowerProfile.powerAt (corrected task update first last).2 i :=
  PowerProfile.powerAt_compress _ _ _

/-- Before a correction the timeline does not change. -/
theorem powerAt_withAdapted_of_lt (hfirst : update.firstKey? = some first)
    (hlast : update.lastKey? = some last) {t : Int} (ht : t < task.startingTime + first) :
    (s.withAdapted f task update first last).powerAt t = s.powerAt t := by
  apply PowerProfile.powerAt_congr
  intro j hj
  exact get?_correctedLine_of_outside hfirst hlast (.inl (by omega))

/-- A setpoint at the end of a task stays if the correction ends there at the latest, and with
    it everything behind. -/
theorem powerAt_withAdapted_of_stop_le (hfirst : update.firstKey? = some first)
    (hlast : update.lastKey? = some last) (hlength : last ≤ task.runningTime)
    (hset : task.stop ∈ s.scheduledPower.keys) {t : Int} (ht : task.stop ≤ t) :
    (s.withAdapted f task update first last).powerAt t = s.powerAt t := by
  show PowerProfile.powerAt (correctedLine s.scheduledPower task update first last) t
    = PowerProfile.powerAt s.scheduledPower t
  rw [PowerProfile.powerAt, PowerProfile.powerAt, OrderedMap.floorValue?_congr_from hset ht]
  intro j hj _
  have hstop : task.stop = task.startingTime + task.runningTime := rfl
  rcases Int.lt_or_eq_of_le (show task.startingTime + last ≤ j by omega) with hlater | rfl
  · exact get?_correctedLine_of_outside hfirst hlast (.inr hlater)
  · -- The correction ends with the task, and gives way to the setpoint there.
    have hend : task.startingTime + last = task.stop := by omega
    obtain ⟨v, hv⟩ := OrderedMap.mem_keys_iff_get?.1 hset
    rw [PowerTimeline.get?_correctedLine_stop s.scheduledPower update first hend, hend, hv,
      Option.some_or]

/-- A correction that is taken treats task and timeline alike. -/
theorem withAdapted_correctedAlike (hfirst : update.firstKey? = some first)
    (hlast : update.lastKey? = some last) (hkeys : ∀ k ∈ update.keys, 0 ≤ k)
    (hshows : PowerTimeline.Shows s.scheduledPower task) :
    CorrectedAlike s (s.withAdapted f task update first last) task
      (Task.compress { task with power := (corrected task update first last).2 }) update
      first last := by
  have hfirst0 : 0 ≤ first := hkeys first (OrderedMap.firstKey?_eq_some_iff.1 hfirst).1
  have hlast0 : 0 ≤ last := hkeys last (OrderedMap.lastKey?_eq_some_iff.1 hlast).1
  have hshows' : PowerTimeline.Shows (s.withAdapted f task update first last).scheduledPower
      (Task.compress { task with power := (corrected task update first last).2 }) :=
    (hshows.corrected hfirst hlast hlast0).compress
  refine ⟨rfl, rfl, hshows', fun i hi hilast => ?_, fun i hi hin hout => ?_, fun t ht => ?_,
    fun hlength hset t ht => powerAt_withAdapted_of_stop_le hfirst hlast hlength hset ht⟩
  · -- Between its first and its last key both show the update, even behind the task.
    rw [powerAt_compress_corrected, powerAt_corrected_of_inside hfirst hi hilast]
    exact ⟨rfl, (powerAt_correctedLine_of_inside hfirst hi hilast).trans
      (powerAt_corrected_of_inside hfirst hi hilast)⟩
  · -- Elsewhere the task has its old power, which the timeline shows before and after.
    have hkept : (Task.compress
        { task with power := (corrected task update first last).2 }).powerAt i
          = task.powerAt i := by
      rw [powerAt_compress_corrected]
      rcases hout with hbefore | hbehind
      · exact powerAt_corrected_of_lt_first hlast hfirst hbefore
      · exact powerAt_corrected_of_last_le hlast hfirst hbehind
    refine ⟨hkept, ?_⟩
    calc (s.withAdapted f task update first last).powerAt (task.startingTime + i)
        = (Task.compress
            { task with power := (corrected task update first last).2 }).powerAt i :=
          hshows' i hi hin
      _ = task.powerAt i := hkept
      _ = s.powerAt (task.startingTime + i) := (hshows i hi hin).symm
  · exact powerAt_withAdapted_of_lt hfirst hlast (by omega)

/-- Whatever the state: a correction of a task that the timeline shows, with offsets that are
    not negative, does the same to both. It shows from its first to its last key, and elsewhere
    in the window of the task the old power stays. Before the task the timeline does not change,
    and neither does it behind a setpoint at the end of the task if the update has no offset
    behind that. It has none if the task ends when the flexibility has to stop. -/
theorem adapt_corrects_alike (hf : s.flexibilities.get? id = some f)
    (htask : s.tasks.get? f.taskId = some task)
    (hshows : PowerTimeline.Shows s.scheduledPower task) (hkeys : ∀ k ∈ update.keys, 0 ≤ k)
    (hok : s.adapt id update = (.ok, s')) :
    ∃ task' first last, s'.tasks.get? f.taskId = some task' ∧
      update.firstKey? = some first ∧ update.lastKey? = some last ∧
      CorrectedAlike s s' task task' update first last ∧
      (f.stoppingTime = ⟨task.stop, task.stop⟩ → last ≤ task.runningTime) := by
  obtain ⟨first, last, hfirst, hlast, hfits, rfl⟩ := adapt_eq_ok hok hf htask
  refine ⟨_, first, last, OrderedMap.get?_insert_self _ _ _, hfirst, hlast,
    withAdapted_correctedAlike hfirst hlast hkeys hshows, fun hends => ?_⟩
  have hlength := last_le_of_lastEntry? (hfits.lastEntry? hends)
  rw [Task.stop] at hlength
  omega

end Correction

/-- A task of 100 s at 50 W, behind which 70 W are set, for a flexibility that has to stop at
    `stop`. -/
def hundredSeconds (stop : Int) : DeviceState :=
  { DeviceState.fresh with
    flexibilities := OrderedMap.singleton 1
      { id := 1
        taskId := 1
        adaptable := true
        stoppingTime := ⟨stop, stop⟩
        runningTime := ⟨stop, stop⟩
        powerCorridor := .singleton 0 ⟨-2000, 2000⟩
        energyCorridor := .singleton 0 ⟨-8280000, 8280000⟩ }
    tasks := OrderedMap.singleton 1 ⟨1, 1, true, 0, 100, .ofList [(0, 50), (100, 0)]⟩
    scheduledPower := .ofList [(0, 50), (100, 70)] }

theorem shows_hundredSeconds (stop : Int) {task : Task}
    (h : (hundredSeconds stop).tasks.get? 1 = some task) :
    PowerTimeline.Shows (hundredSeconds stop).scheduledPower task := by
  obtain rfl : (⟨1, 1, true, 0, 100, .ofList [(0, 50), (100, 0)]⟩ : Task) = task :=
    Option.some.inj h
  intro i h0 (hi : i < 100)
  -- Profile and timeline have no entry between the start and the end of the task.
  have hconstant : ∀ p : PowerProfile, p.get? 0 = some 50 → (∀ k ∈ p.keys, k = 0 ∨ k = 100) →
      PowerProfile.powerAt p i = 50 := by
    intro p hstart hkeys
    rw [← PowerProfile.powerAt_of_get? hstart]
    refine PowerProfile.powerAt_eq_of_no_key h0 fun j hj hji => ?_
    rw [OrderedMap.get?_eq_none_iff]
    intro hmem
    rcases hkeys j hmem with rfl | rfl
    · exact Int.lt_irrefl 0 hj
    · omega
  show PowerProfile.powerAt (.ofList [(0, 50), (100, 70)]) (0 + i)
    = PowerProfile.powerAt (.ofList [(0, 50), (100, 0)]) i
  rw [Int.zero_add, hconstant _ rfl (by decide), hconstant _ rfl (by decide)]

/-- A correction up to the end of the task: the task runs at 10 W from the middle on, the
    timeline shows that, and 70 W follow as before. -/
theorem adapt_corrects_alike_secondHalf :
    ∃ s' task', (hundredSeconds 100).adapt 1 (.ofList [(50, 10), (100, 0)]) = (.ok, s') ∧
      s'.tasks.get? 1 = some task' ∧ PowerTimeline.Shows s'.scheduledPower task' ∧
      s'.powerAt 50 = 10 ∧ ∀ t, 100 ≤ t → s'.powerAt t = (hundredSeconds 100).powerAt t := by
  have htaken : ((hundredSeconds 100).adapt 1 (.ofList [(50, 10), (100, 0)])).1 = .ok := by
    decide +kernel
  have hflexibility : (hundredSeconds 100).flexibilities.get? 1 = some _ := rfl
  obtain ⟨task', first, last, htask', hfirst, hlast, halike, hlength⟩ :=
    adapt_corrects_alike hflexibility rfl (shows_hundredSeconds 100 rfl) (by decide)
      (Prod.ext htaken rfl)
  obtain rfl : first = 50 := (Option.some.inj hfirst).symm
  obtain rfl : last = 100 := (Option.some.inj hlast).symm
  refine ⟨_, task', Prod.ext htaken rfl, htask', halike.shows, ?_, ?_⟩
  · exact (halike.inside 50 (Int.le_refl 50) (by decide)).2
  · exact halike.behind (hlength rfl) (by decide)

/-- A task that ends before its flexibility has to stop can be prolonged by a correction, and
    that ends the power which had been set behind the task. -/
theorem adapt_behind_task_changes :
    ∃ (s s' : DeviceState) (f : Flexibility) (task : Task) (update : PowerProfile) (stop t : Int),
      s.flexibilities.get? 1 = some f ∧ f.adaptable ∧ f.stoppingTime = ⟨stop, stop⟩ ∧
      s.tasks.get? f.taskId = some task ∧ task.power.lastKey? = some task.runningTime ∧
      PowerTimeline.Shows s.scheduledPower task ∧ (∀ k ∈ update.keys, 0 ≤ k) ∧
      s.adapt 1 update = (.ok, s') ∧ task.stop ∈ s.scheduledPower.keys ∧ task.stop ≤ t ∧
      s'.powerAt t ≠ s.powerAt t := by
  have htaken : ((hundredSeconds 200).adapt 1 (.ofList [(200, 0)])).1 = .ok := by decide +kernel
  exact ⟨hundredSeconds 200, _, _, _, .ofList [(200, 0)], 200, 200, rfl, rfl, rfl, rfl, rfl,
    shows_hundredSeconds 200 rfl, by decide, Prod.ext htaken rfl, by decide, by decide,
    by decide +kernel⟩

end DeviceState
end SiteDispatch
