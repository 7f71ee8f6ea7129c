/-
  SiteDispatch.Proofs.Device.Requests

  How a device answers requests.

  The rules for each kind of request stand in the order in which they apply, each
  with all that it presupposes, so that exactly one of them answers a request. A
  request that is refused changes nothing. A profile that is taken is stored in its
  shortest form: that has the same power at every offset and passes the gate again.
-/

import SiteDispatch.Proofs.Device.Timeline

namespace SiteDispatch
namespace DeviceState

/-! ## The rules -/

/-- How a request to plan `power` from `startingTime` on is answered. -/
inductive ScheduleAnswer (s : DeviceState) (id startingTime : Int) (power : PowerProfile)
    (now : Int) : SchedulingResult → Prop
  | unknownFlexibility (hf : s.flexibilities.get? id = none) :
      ScheduleAnswer s id startingTime power now .unknownFlexibility
  | unknownTask {f : Flexibility} (hf : s.flexibilities.get? id = some f)
      (ht : s.tasks.get? f.taskId = none) :
      ScheduleAnswer s id startingTime power now .unknownTask
  | started {f : Flexibility} {task : Task} (hf : s.flexibilities.get? id = some f)
      (ht : s.tasks.get? f.taskId = some task) (hstarted : task.startingTime < now) :
      ScheduleAnswer s id startingTime power now .illegal
  | invalid {f : Flexibility} {task : Task} {fault : ValidityError}
      (hf : s.flexibilities.get? id = some f) (ht : s.tasks.get? f.taskId = some task)
      (hwaits : now ≤ task.startingTime)
      (hfault : f.validate startingTime power = .error fault) :
      ScheduleAnswer s id startingTime power now .invalidData
  | taken {f : Flexibility} {task : Task} (hf : s.flexibilities.get? id = some f)
      (ht : s.tasks.get? f.taskId = some task) (hwaits : now ≤ task.startingTime)
      (hvalid : f.validate startingTime power = .ok ()) :
      ScheduleAnswer s id startingTime power now .ok

/-- `merged` is the profile of `task` with the entries between `first` and `last`
    replaced by those of `update`, and with the value in force so far under `last`. -/
def Merges (task : Task) (update : PowerProfile) (first last : Int) (merged : PowerProfile) :
    Prop :=
  ∀ k, merged.get? k =
    if k < first ∨ last < k then task.power.get? k
    else if k = last then some (task.powerAt last)
    else update.get? k

/-- How a request to correct a task by `update` is answered. -/
inductive AdaptAnswer (s : DeviceState) (id : Int) (update : PowerProfile) :
    SchedulingResult → Prop
  | unknownFlexibility (hf : s.flexibilities.get? id = none) :
      AdaptAnswer s id update .unknownFlexibility
  | notAdaptable {f : Flexibility} (hf : s.flexibilities.get? id = some f)
      (hfixed : f.adaptable = false) : AdaptAnswer s id update .illegal
  | unknownTask {f : Flexibility} (hf : s.flexibilities.get? id = some f)
      (hadaptable : f.adaptable = true) (ht : s.tasks.get? f.taskId = none) :
      AdaptAnswer s id update .unknownTask
  | empty {f : Flexibility} {task : Task} (hf : s.flexibilities.get? id = some f)
      (hadaptable : f.adaptable = true) (ht : s.tasks.get? f.taskId = some task)
      (hempty : update.keys = []) : AdaptAnswer s id update .invalidData
  | invalid {f : Flexibility} {task : Task} {first last : Int} {merged : PowerProfile}
      {fault : ValidityError} (hf : s.flexibilities.get? id = some f)
      (hadaptable : f.adaptable = true) (ht : s.tasks.get? f.taskId = some task)
      (hfirst : update.firstKey? = some first) (hlast : update.lastKey? = some last)
      (hmerged : Merges task update first last merged)
      (hfault : f.validate task.startingTime merged = .error fault) :
      AdaptAnswer s id update .invalidData
  | taken {f : Flexibility} {task : Task} {first last : Int} {merged : PowerProfile}
      (hf : s.flexibilities.get? id = some f) (hadaptable : f.adaptable = true)
      (ht : s.tasks.get? f.taskId = some task) (hfirst : update.firstKey? = some first)
      (hlast : update.lastKey? = some last) (hmerged : Merges task update first last merged)
      (hvalid : f.validate task.startingTime merged = .ok ()) :
      AdaptAnswer s id update .ok

/-- How a request to return a task to rest is answered. -/
inductive UnscheduleAnswer (s : DeviceState) (id now : Int) : SchedulingResult → Prop
  | unknownFlexibility (hf : s.flexibilities.get? id = none) :
      UnscheduleAnswer s id now .unknownFlexibility
  | unknownTask {f : Flexibility} (hf : s.flexibilities.get? id = some f)
      (ht : s.tasks.get? f.taskId = none) : UnscheduleAnswer s id now .unknownTask
  | started {f : Flexibility} {task : Task} (hf : s.flexibilities.get? id = some f)
      (ht : s.tasks.get? f.taskId = some task) (hstarted : task.startingTime < now) :
      UnscheduleAnswer s id now .illegal
  | taken {f : Flexibility} {task : Task} (hf : s.flexibilities.get? id = some f)
      (ht : s.tasks.get? f.taskId = some task) (hwaits : now ≤ task.startingTime) :
      UnscheduleAnswer s id now .ok

/-- The task of flexibility `id` starts at `startingTime`, has the power of `profile`,
    and would be accepted as it is stored. -/
def Stores (s : DeviceState) (id startingTime : Int) (profile : PowerProfile) : Prop :=
  ∃ f task, s.flexibilities.get? id = some f ∧ s.tasks.get? f.taskId = some task ∧
    task.startingTime = startingTime ∧
    (∀ offset, 0 ≤ offset → task.powerAt offset = PowerProfile.powerAt profile offset) ∧
    f.validate task.startingTime task.power = .ok ()

/-! ## One answer to each request -/

section Answers

variable {s : DeviceState} {id startingTime now : Int} {power update merged : PowerProfile}
  {task : Task} {first last : Int}

/-- There is one merged profile, and it is the corrected one. -/
theorem merges_iff (hfirst : update.firstKey? = some first) (hlast : update.lastKey? = some last) :
    Merges task update first last merged ↔ merged = (corrected task update first last).2 := by
  have hcorrected : ∀ k, (corrected task update first last).2.get? k =
      if k < first ∨ last < k then task.power.get? k
      else if k = last then some (task.powerAt last)
      else update.get? k := by
    intro k
    rw [get?_corrected]
    by_cases hout : k < first ∨ last < k
    · rw [get?_corrected_update_eq_none hfirst hlast hout, Option.none_or, if_pos hout]
      rw [if_pos hout]
    · rw [if_neg hout, Option.or_none, get?_corrected_update, if_neg hout]
  constructor
  · intro h
    apply OrderedMap.ext_get?
    intro k
    rw [h k, hcorrected k]
  · rintro rfl
    exact hcorrected

/-- The rules for planning cover every request. -/
theorem exists_scheduleAnswer (s : DeviceState) (id startingTime : Int) (power : PowerProfile)
    (now : Int) : ∃ r, ScheduleAnswer s id startingTime power now r := by
  cases hf : s.flexibilities.get? id with
  | none => exact ⟨_, .unknownFlexibility hf⟩
  | some f =>
      cases ht : s.tasks.get? f.taskId with
      | none => exact ⟨_, .unknownTask hf ht⟩
      | some task =>
          by_cases hstarted : task.startingTime < now
          · exact ⟨_, .started hf ht hstarted⟩
          · have hwaits : now ≤ task.startingTime := by omega
            cases hvalid : f.validate startingTime power with
            | error fault => exact ⟨_, .invalid hf ht hwaits hvalid⟩
            | ok _ => exact ⟨_, .taken hf ht hwaits hvalid⟩

/-- A request to plan is answered by the rule that applies. -/
theorem ScheduleAnswer.answer_eq {r : SchedulingResult}
    (h : ScheduleAnswer s id startingTime power now r) :
    (s.schedule id startingTime power now).1 = r := by
  cases h with
  | unknownFlexibility hf => simp [schedule, hf]
  | unknownTask hf ht => simp [schedule, hf, ht]
  | started hf ht hstarted => simp [schedule, hf, ht, Task.hasStarted, hstarted]
  | invalid hf ht hwaits hfault =>
      have hnot := Int.not_lt.2 hwaits
      simp [schedule, hf, ht, Task.hasStarted, hnot, Flexibility.accepts, hfault]
  | taken hf ht hwaits hvalid =>
      have hnot : Task.hasStarted _ now = false := decide_eq_false (Int.not_lt.2 hwaits)
      rw [schedule_of_fits hf ht hnot (Flexibility.validate_eq_ok_iff_fits.1 hvalid)]

theorem schedule_answer_iff {r : SchedulingResult} :
    (s.schedule id startingTime power now).1 = r ↔
      ScheduleAnswer s id startingTime power now r := by
  constructor
  · rintro rfl
    obtain ⟨r, hr⟩ := exists_scheduleAnswer s id startingTime power now
    rwa [hr.answer_eq]
  · exact ScheduleAnswer.answer_eq

/-- The rules for corrections cover every request. -/
theorem exists_adaptAnswer (s : DeviceState) (id : Int) (update : PowerProfile) :
    ∃ r, AdaptAnswer s id update r := by
  cases hf : s.flexibilities.get? id with
  | none => exact ⟨_, .unknownFlexibility hf⟩
  | some f =>
      cases hadaptable : f.adaptable with
      | false => exact ⟨_, .notAdaptable hf hadaptable⟩
      | true =>
          cases ht : s.tasks.get? f.taskId with
          | none => exact ⟨_, .unknownTask hf hadaptable ht⟩
          | some task =>
              by_cases hempty : update.keys = []
              · exact ⟨_, .empty hf hadaptable ht hempty⟩
              · -- An update with keys has a first and a last one.
                obtain ⟨first, hfirst⟩ : ∃ first, update.firstKey? = some first :=
                  ⟨_, List.head?_eq_some_head hempty⟩
                obtain ⟨last, hlast⟩ : ∃ last, update.lastKey? = some last :=
                  ⟨_, List.getLast?_eq_some_getLast hempty⟩
                have hmerged : Merges task update first last
                    (corrected task update first last).2 := (merges_iff hfirst hlast).2 rfl
                cases hvalid : f.validate task.startingTime (corrected task update first last).2 with
                | error fault =>
                    exact ⟨_, .invalid hf hadaptable ht hfirst hlast hmerged hvalid⟩
                | ok _ => exact ⟨_, .taken hf hadaptable ht hfirst hlast hmerged hvalid⟩

/-- A correction is answered by the rule that applies. -/
theorem AdaptAnswer.answer_eq {r : SchedulingResult} (h : AdaptAnswer s id update r) :
    (s.adapt id update).1 = r := by
  cases h with
  | unknownFlexibility hf => simp [adapt, hf]
  | notAdaptable hf hfixed => simp [adapt, hf, hfixed]
  | unknownTask hf hadaptable ht => simp [adapt, hf, hadaptable, ht]
  | empty hf hadaptable ht hempty =>
      simp [adapt, hf, hadaptable, ht, OrderedMap.firstKey?, hempty]
  | invalid hf hadaptable ht hfirst hlast hmerged hfault =>
      rw [merges_iff hfirst hlast] at hmerged
      subst hmerged
      simp [adapt, hf, hadaptable, ht, hfirst, hlast, Flexibility.accepts, hfault]
  | taken hf hadaptable ht hfirst hlast hmerged hvalid =>
      rw [merges_iff hfirst hlast] at hmerged
      subst hmerged
      rw [adapt_of_fits hf hadaptable ht hfirst hlast
        (Flexibility.validate_eq_ok_iff_fits.1 hvalid)]

theorem adapt_answer_iff {r : SchedulingResult} :
    (s.adapt id update).1 = r ↔ AdaptAnswer s id update r := by
  constructor
  · rintro rfl
    obtain ⟨r, hr⟩ := exists_adaptAnswer s id update
    rwa [hr.answer_eq]
  · exact AdaptAnswer.answer_eq

/-- The rules for a return to rest cover every request. -/
theorem exists_unscheduleAnswer (s : DeviceState) (id now : Int) :
    ∃ r, UnscheduleAnswer s id now r := by
  cases hf : s.flexibilities.get? id with
  | none => exact ⟨_, .unknownFlexibility hf⟩
  | some f =>
      cases ht : s.tasks.get? f.taskId with
      | none => exact ⟨_, .unknownTask hf ht⟩
      | some task =>
          by_cases hstarted : task.startingTime < now
          · exact ⟨_, .started hf ht hstarted⟩
          · exact ⟨_, .taken hf ht (Int.not_lt.1 hstarted)⟩

/-- A request to return to rest is answered by the rule that applies, and changes
    nothing when it is refused. -/
theorem UnscheduleAnswer.answer_eq {r : SchedulingResult} (h : UnscheduleAnswer s id now r) :
    (s.unschedule id now).1 = r ∧ (r ≠ .ok → (s.unschedule id now).2 = s) := by
  cases h with
  | unknownFlexibility hf => simp [unschedule, hf]
  | unknownTask hf ht => simp [unschedule, hf, ht]
  | started hf ht hstarted => simp [unschedule, hf, ht, Task.hasStarted, hstarted]
  | taken hf ht hwaits =>
      have hnot := Int.not_lt.2 hwaits
      simp [unschedule, hf, ht, Task.hasStarted, hnot]

theorem unschedule_answer_iff {r : SchedulingResult} :
    (s.unschedule id now).1 = r ↔ UnscheduleAnswer s id now r := by
  constructor
  · rintro rfl
    obtain ⟨r, hr⟩ := exists_unscheduleAnswer s id now
    rwa [hr.answer_eq.1]
  · exact fun h => h.answer_eq.1

/-! ## What is stored -/

/-- The shortest form of a fitting profile has its power and passes the gate. -/
theorem stores_of_compressed {f : Flexibility} {runningTime : Int}
    (hf : s.flexibilities.get? id = some f) (ht : s.tasks.get? f.taskId = some task)
    (hstart : task.startingTime = startingTime)
    (hpower : task.power = PowerProfile.compress power runningTime)
    (hfits : f.Fits startingTime power) : s.Stores id startingTime power := by
  refine ⟨f, task, hf, ht, hstart, ?_, ?_⟩
  · intro offset _
    rw [Task.powerAt, hpower, PowerProfile.powerAt_compress]
  · rw [Flexibility.validate_eq_ok_iff_fits, hstart, hpower]
    exact hfits.compress

theorem schedule_stores (h : (s.schedule id startingTime power now).1 = .ok) :
    (s.schedule id startingTime power now).2.Stores id startingTime power := by
  rcases s.schedule_cases id startingTime power now with
    ⟨hrefused, -⟩ | ⟨f, task, hf, ht, hstarted, hfits, heq⟩
  · exact absurd h hrefused
  · have hstored : (s.withScheduled f task startingTime power).tasks.get? f.taskId
        = some (rescheduled task startingTime power) := OrderedMap.get?_insert_self _ _ _
    rw [heq]
    exact stores_of_compressed hf hstored rfl rfl hfits

theorem adapt_stores (h : (s.adapt id update).1 = .ok) :
    ∃ f task first last merged, s.flexibilities.get? id = some f ∧
      s.tasks.get? f.taskId = some task ∧ update.firstKey? = some first ∧
      update.lastKey? = some last ∧ Merges task update first last merged ∧
      (s.adapt id update).2.Stores id task.startingTime merged := by
  rcases s.adapt_cases id update with
    ⟨hrefused, -⟩ | ⟨f, task, first, last, hf, -, ht, hfirst, hlast, hfits, heq⟩
  · exact absurd h hrefused
  · refine ⟨f, task, first, last, (corrected task update first last).2, hf, ht, hfirst, hlast,
      (merges_iff hfirst hlast).2 rfl, ?_⟩
    have hstored : (s.withAdapted f task update first last).tasks.get? f.taskId
        = some (Task.compress { task with power := (corrected task update first last).2 }) :=
      OrderedMap.get?_insert_self _ _ _
    rw [heq]
    exact stores_of_compressed hf hstored rfl rfl hfits

end Answers

/-- Requests are answered by the rules, each by exactly one of them. A refused request
    leaves the whole state as it was. After a profile or a correction has been taken,
    the task has the power of the submitted, respectively the merged, profile at every
    offset, and what is stored passes the gate. -/
theorem requests_all_or_nothing (s : DeviceState) (id : Int) :
    (∀ startingTime power now,
      (∀ r, (s.schedule id startingTime power now).1 = r ↔
        ScheduleAnswer s id startingTime power now r) ∧
      ((s.schedule id startingTime power now).1 ≠ .ok →
        (s.schedule id startingTime power now).2 = s) ∧
      ((s.schedule id startingTime power now).1 = .ok →
        (s.schedule id startingTime power now).2.Stores id startingTime power)) ∧
    (∀ update,
      (∀ r, (s.adapt id update).1 = r ↔ AdaptAnswer s id update r) ∧
      ((s.adapt id update).1 ≠ .ok → (s.adapt id update).2 = s) ∧
      ((s.adapt id update).1 = .ok →
        ∃ f task first last merged, s.flexibilities.get? id = some f ∧
          s.tasks.get? f.taskId = some task ∧ update.firstKey? = some first ∧
          update.lastKey? = some last ∧ Merges task update first last merged ∧
          (s.adapt id update).2.Stores id task.startingTime merged)) ∧
    (∀ now,
      (∀ r, (s.unschedule id now).1 = r ↔ UnscheduleAnswer s id now r) ∧
      ((s.unschedule id now).1 ≠ .ok → (s.unschedule id now).2 = s)) := by
  refine ⟨fun startingTime power now => ⟨fun _ => schedule_answer_iff, ?_, schedule_stores⟩,
    fun update => ⟨fun _ => adapt_answer_iff, ?_, adapt_stores⟩,
    fun now => ⟨fun _ => unschedule_answer_iff, ?_⟩⟩
  · intro hrefused
    rcases s.schedule_cases id startingTime power now with ⟨-, hsame⟩ | ⟨_, _, _, _, _, _, heq⟩
    · exact hsame
    · exact absurd (congrArg Prod.fst heq) hrefused
  · intro hrefused
    rcases s.adapt_cases id update with ⟨-, hsame⟩ | ⟨_, _, _, _, _, _, _, _, _, _, heq⟩
    · exact hsame
    · exact absurd (congrArg Prod.fst heq) hrefused
  · obtain ⟨r, hr⟩ := exists_unscheduleAnswer s id now
    obtain ⟨hanswer, hsame⟩ := hr.answer_eq
    rwa [hanswer]

/-- A device with one task of two hours that is to start at second 3600. -/
def twoHours : DeviceState :=
  { DeviceState.fresh with
    flexibilities := .singleton 0
      { id := 0
        taskId := 0
        adaptable := true
        stoppingTime := ⟨10800, 10800⟩
        runningTime := ⟨7200, 7200⟩
        powerCorridor := .singleton 0 ⟨-500, 500⟩
        energyCorridor := .singleton 0 ⟨-3600000, 3600000⟩ }
    tasks := .singleton 0 (Task.idle 0 0 true 3600 7200) }

/-- A profile is taken up to the second in which the task starts and refused one second
    later; a correction of the task at rest is taken, with the value in force at its end
    in place of the last value of the update. -/
theorem requests_all_or_nothing_twoHours :
    ((twoHours.schedule 0 3600 (.ofList [(0, 500), (60, 500), (7200, 0)]) 3600).1 = .ok ∧
      (twoHours.schedule 0 3600 (.ofList [(0, 500), (60, 500), (7200, 0)]) 3600).2.Stores 0 3600
        (.ofList [(0, 500), (60, 500), (7200, 0)])) ∧
    ((twoHours.schedule 0 3600 (.ofList [(0, 500), (60, 500), (7200, 0)]) 3601).1 ≠ .ok ∧
      (twoHours.schedule 0 3600 (.ofList [(0, 500), (60, 500), (7200, 0)]) 3601).2 = twoHours) ∧
    AdaptAnswer twoHours 0 (.ofList [(600, -100), (1200, 300)]) .ok := by
  obtain ⟨hschedule, hadapt, -⟩ := requests_all_or_nothing twoHours 0
  have htaken : (twoHours.schedule 0 3600 (.ofList [(0, 500), (60, 500), (7200, 0)]) 3600).1
      = .ok := by decide +kernel
  have hrefused : (twoHours.schedule 0 3600 (.ofList [(0, 500), (60, 500), (7200, 0)]) 3601).1
      ≠ .ok := by decide +kernel
  have hcorrected : (twoHours.adapt 0 (.ofList [(600, -100), (1200, 300)])).1 = .ok := by
    decide +kernel
  exact ⟨⟨htaken, (hschedule 3600 _ 3600).2.2 htaken⟩,
    ⟨hrefused, (hschedule 3600 _ 3601).2.1 hrefused⟩, ((hadapt _).1 .ok).1 hcorrected⟩

end DeviceState
end SiteDispatch
