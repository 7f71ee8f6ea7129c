/-
  SiteDispatch.Proofs.Device.Commit

  What requests to a device do.

  A request is either taken, and then the profile fits the flexibility it was made
  for, or it leaves the schedule as it was. The lemmas name everything that a taken
  request has met and the state it leads to.
-/

import SiteDispatch.Device.Commit
import SiteDispatch.Proofs.Flexibility.Validity

namespace SiteDispatch
namespace DeviceState

/-- A task with a new start and a new profile, which also sets its duration. -/
def rescheduled (task : Task) (startingTime : Int) (power : PowerProfile) : Task :=
  Task.compress
    { task with
      startingTime := startingTime
      runningTime := power.lastKey?.getD task.runningTime
      power := power }

/-- The state after a profile has been taken for the task of `f`. -/
def withScheduled (s : DeviceState) (f : Flexibility) (task : Task) (startingTime : Int)
    (power : PowerProfile) : DeviceState :=
  { s with
    tasks := s.tasks.insert f.taskId (rescheduled task startingTime power)
    scheduledPower := PowerTimeline.write
      (PowerTimeline.clear s.scheduledPower task.startingTime task.stop) startingTime
      (rescheduled task startingTime power).power
      fun offset => some offset = (rescheduled task startingTime power).power.lastKey? }

/-- A timeline with the entries of a correction in place of its own. -/
def correctedLine (line : PowerTimeline) (task : Task) (update : PowerProfile)
    (first last : Int) : PowerTimeline :=
  PowerTimeline.write (PowerTimeline.clear line (task.startingTime + first)
    (task.startingTime + last)) task.startingTime (corrected task update first last).1
    fun offset => task.stop ≤ task.startingTime + offset

/-- The state after a correction between `first` and `last` has been taken for the task
    of `f`. -/
def withAdapted (s : DeviceState) (f : Flexibility) (task : Task) (update : PowerProfile)
    (first last : Int) : DeviceState :=
  { s with
    tasks := s.tasks.insert f.taskId
      (Task.compress { task with power := (corrected task update first last).2 })
    scheduledPower := correctedLine s.scheduledPower task update first last }

/-- The state after the task of `f` has been returned to rest. -/
def withRested (s : DeviceState) (f : Flexibility) (task : Task) : DeviceState :=
  { s with
    tasks := s.tasks.insert f.taskId { task with power := PowerProfile.idle task.runningTime }
    scheduledPower := (PowerTimeline.clear s.scheduledPower task.startingTime
      task.stop).insert task.startingTime 0 }

section Commit

variable {s s' : DeviceState} {f : Flexibility} {task : Task} {id startingTime now : Int}
  {power update : PowerProfile} {first last : Int}

/-- A fitting profile is taken as long as the task has not started. -/
theorem schedule_of_fits (hf : s.flexibilities.get? id = some f)
    (ht : s.tasks.get? f.taskId = some task) (hstarted : task.hasStarted now = false)
    (hfits : f.Fits startingTime power) :
    s.schedule id startingTime power now
      = (.ok, s.withScheduled f task startingTime power) := by
  have haccepts := Flexibility.accepts_iff_fits.2 hfits
  simp only [schedule, hf, ht, hstarted, haccepts, Bool.not_true, Bool.false_eq_true, if_false]
  rfl

/-- A profile is taken for a task that has not started if it fits; any other request
    changes nothing. -/
theorem schedule_cases (s : DeviceState) (id startingTime : Int) (power : PowerProfile)
    (now : Int) :
    ((s.schedule id startingTime power now).1 ≠ .ok ∧
      (s.schedule id startingTime power now).2 = s) ∨
    ∃ f task, s.flexibilities.get? id = some f ∧ s.tasks.get? f.taskId = some task ∧
      task.hasStarted now = false ∧ f.Fits startingTime power ∧
      s.schedule id startingTime power now
        = (.ok, s.withScheduled f task startingTime power) := by
  -- The checks in the order in which the request meets them.
  cases hf : s.flexibilities.get? id with
  | none => exact .inl (by simp [schedule, hf])
  | some f =>
      cases ht : s.tasks.get? f.taskId with
      | none => exact .inl (by simp [schedule, hf, ht])
      | some task =>
          by_cases hstarted : task.hasStarted now
          · exact .inl (by simp [schedule, hf, ht, hstarted])
          · by_cases haccepts : f.accepts startingTime power
            · have hstarted : task.hasStarted now = false := by simpa using hstarted
              have hfits := Flexibility.accepts_iff_fits.1 haccepts
              exact .inr ⟨f, task, rfl, ht, hstarted, hfits,
                schedule_of_fits hf ht hstarted hfits⟩
            · exact .inl (by simp [schedule, hf, ht, hstarted, haccepts])

/-- What a taken profile has met, and where it leads to. -/
theorem schedule_eq_ok (h : s.schedule id startingTime power now = (.ok, s'))
    (hf : s.flexibilities.get? id = some f) (ht : s.tasks.get? f.taskId = some task) :
    task.hasStarted now = false ∧ f.Fits startingTime power ∧
      s' = s.withScheduled f task startingTime power := by
  rcases s.schedule_cases id startingTime power now with
    ⟨hrefused, -⟩ | ⟨f', task', hf', ht', hstarted, hfits, heq⟩
  · rw [h] at hrefused
    exact absurd rfl hrefused
  · rw [hf, Option.some.injEq] at hf'
    subst hf'
    rw [ht, Option.some.injEq] at ht'
    subst ht'
    exact ⟨hstarted, hfits, (Prod.mk.inj (h.symm.trans heq)).2⟩

/-- A correction after which the profile fits is taken for an adaptable flexibility. -/
theorem adapt_of_fits (hf : s.flexibilities.get? id = some f) (hadaptable : f.adaptable)
    (ht : s.tasks.get? f.taskId = some task) (hfirst : update.firstKey? = some first)
    (hlast : update.lastKey? = some last)
    (hfits : f.Fits task.startingTime (corrected task update first last).2) :
    s.adapt id update = (.ok, s.withAdapted f task update first last) := by
  have haccepts := Flexibility.accepts_iff_fits.2 hfits
  simp only [adapt, hf, hadaptable, ht, hfirst, hlast, haccepts, Bool.not_true,
    Bool.false_eq_true, if_false]
  rfl

/-- A correction is taken for an adaptable flexibility if the corrected profile fits;
    any other request changes nothing. -/
theorem adapt_cases (s : DeviceState) (id : Int) (update : PowerProfile) :
    ((s.adapt id update).1 ≠ .ok ∧ (s.adapt id update).2 = s) ∨
    ∃ f task first last, s.flexibilities.get? id = some f ∧ f.adaptable ∧
      s.tasks.get? f.taskId = some task ∧ update.firstKey? = some first ∧
      update.lastKey? = some last ∧
      f.Fits task.startingTime (corrected task update first last).2 ∧
      s.adapt id update = (.ok, s.withAdapted f task update first last) := by
  -- An update without any entry is refused like one that does not fit.
  cases hf : s.flexibilities.get? id with
  | none => exact .inl (by simp [adapt, hf])
  | some f =>
      by_cases hadaptable : f.adaptable
      · cases ht : s.tasks.get? f.taskId with
        | none => exact .inl (by simp [adapt, hf, ht, hadaptable])
        | some task =>
            cases hfirst : update.firstKey? with
            | none => exact .inl (by simp [adapt, hf, ht, hadaptable, hfirst])
            | some first =>
                cases hlast : update.lastKey? with
                | none => exact .inl (by simp [adapt, hf, ht, hadaptable, hfirst, hlast])
                | some last =>
                    by_cases haccepts :
                        f.accepts task.startingTime (corrected task update first last).2
                    · have hfits := Flexibility.accepts_iff_fits.1 haccepts
                      exact .inr ⟨f, task, first, last, rfl, hadaptable, ht, rfl, rfl, hfits,
                        adapt_of_fits hf hadaptable ht hfirst hlast hfits⟩
                    · exact .inl (by simp [adapt, hf, ht, hadaptable, hfirst, hlast, haccepts])
      · exact .inl (by simp [adapt, hf, hadaptable])

/-- What a taken correction has met, and where it leads to. -/
theorem adapt_eq_ok (h : s.adapt id update = (.ok, s'))
    (hf : s.flexibilities.get? id = some f) (ht : s.tasks.get? f.taskId = some task) :
    ∃ first last, update.firstKey? = some first ∧ update.lastKey? = some last ∧
      f.Fits task.startingTime (corrected task update first last).2 ∧
      s' = s.withAdapted f task update first last := by
  rcases s.adapt_cases id update with
    ⟨hrefused, -⟩ | ⟨f', task', first, last, hf', -, ht', hfirst, hlast, hfits, heq⟩
  · rw [h] at hrefused
    exact absurd rfl hrefused
  · rw [hf, Option.some.injEq] at hf'
    subst hf'
    rw [ht, Option.some.injEq] at ht'
    subst ht'
    exact ⟨first, last, hfirst, hlast, hfits, (Prod.mk.inj (h.symm.trans heq)).2⟩

end Commit

/-- A task that has not started is returned to rest; any other request changes nothing. -/
theorem unschedule_cases (s : DeviceState) (id now : Int) :
    ((s.unschedule id now).1 ≠ .ok ∧ (s.unschedule id now).2 = s) ∨
    ∃ f task, s.flexibilities.get? id = some f ∧ s.tasks.get? f.taskId = some task ∧
      s.unschedule id now = (.ok, s.withRested f task) := by
  cases hf : s.flexibilities.get? id with
  | none => exact .inl (by simp [unschedule, hf])
  | some f =>
      cases ht : s.tasks.get? f.taskId with
      | none => exact .inl (by simp [unschedule, hf, ht])
      | some task =>
          by_cases hstarted : task.hasStarted now
          · exact .inl (by simp [unschedule, hf, ht, hstarted])
          · exact .inr ⟨f, task, rfl, ht, by simp [unschedule, hf, ht, hstarted, withRested]⟩

end DeviceState
end SiteDispatch
