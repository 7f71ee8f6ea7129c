/-
  SiteDispatch.Proofs.Device.Prune

  What a device forgets is over.

  Tasks, flexibilities and setpoints are thinned out by three rules of their own: a task goes once
  it has ended, a flexibility with its task, a setpoint after a day unless it is still in force.
  They agree on what is still needed. From `now` on the timeline is the same step function, every
  instant lies in the same task, and what is left of the tasks are those that have not ended.
-/

import SiteDispatch.Proofs.Device.Days
import SiteDispatch.Proofs.Flexibility.Past

namespace SiteDispatch
namespace DeviceState

open PowerProfile (SameFrom)

variable {s : DeviceState} {now : Int}

/-! ## Setpoints -/

theorem get?_scheduledPower_prune (s : DeviceState) (now k : Int) :
    (s.prune now).2.scheduledPower.get? k
      = if now ≤ k + timelineRetention ∨ some k = (s.scheduledPower.floorEntry? now).map (·.1)
        then s.scheduledPower.get? k else none :=
  OrderedMap.get?_filter_keys (by simp)

/-- The setpoint in force at `now` is not forgotten, however old it is, and none after it. -/
theorem sameFrom_prune (s : DeviceState) (now : Int) :
    SameFrom now s.scheduledPower (s.prune now).2.scheduledPower := by
  have hkeep : ∀ j, now ≤ j →
      (s.prune now).2.scheduledPower.get? j = s.scheduledPower.get? j := by
    intro j hj
    rw [get?_scheduledPower_prune, if_pos]
    rw [timelineRetention]
    omega
  cases hforce : s.scheduledPower.floorEntry? now with
  | none =>
      -- No setpoint has been reached yet, so what is forgotten was not there.
      refine ⟨hkeep, PowerProfile.powerAt_congr fun j hj => ?_⟩
      rw [get?_scheduledPower_prune, OrderedMap.floorEntry?_eq_none_iff.1 hforce j hj, ite_self]
  | some e =>
      obtain ⟨k, watts⟩ := e
      obtain ⟨hk, hknow, hnext⟩ := OrderedMap.floorEntry?_eq_some_iff.1 hforce
      refine .of_entries (OrderedMap.mem_keys_iff_get?.2 ⟨watts, hk⟩) hknow fun j hkj => ?_
      by_cases hj : now ≤ j
      · exact hkeep j hj
      · rcases Int.lt_or_eq_of_le hkj with hlt | rfl
        · rw [get?_scheduledPower_prune, hnext j hlt (by omega), ite_self]
        · rw [get?_scheduledPower_prune, if_pos (.inr (by rw [hforce]; rfl))]

theorem powerAt_prune {t : Int} (ht : now ≤ t) : (s.prune now).2.powerAt t = s.powerAt t :=
  (sameFrom_prune s now).powerAt ht

theorem expectedEnergy_prune {start : Int} (hstart : now ≤ start) (time stored : Int) :
    (s.prune now).2.expectedEnergy start time stored = s.expectedEnergy start time stored := by
  rw [expectedEnergy, expectedEnergy, ((sameFrom_prune s now).later hstart).energyBetween]

/-! ## Tasks -/

/-- The tasks that are left are those that have not ended. -/
theorem Holds.tasks_prune (h : s.Holds Linked) (now : Int) :
    (s.prune now).2.tasks = s.tasks.filter fun _ t => now ≤ t.stop := by
  apply OrderedMap.ext_get?
  intro k
  rw [get?_tasks_prune h.paired, OrderedMap.get?_filter]

/-- A task that has ended does not cover an instant that is still to come. -/
theorem Holds.taskIdAt?_prune (h : s.Holds Linked) {t : Int} (ht : now ≤ t)
    (stopIncluded : Bool) :
    (s.prune now).2.taskIdAt? t stopIncluded = s.taskIdAt? t stopIncluded := by
  rw [taskIdAt?, taskIdAt?, h.tasks_prune, OrderedMap.values_filter, List.find?_filter]
  congr 2
  funext task
  rw [Bool.eq_iff_iff, decide_eq_true_eq, decide_eq_true_eq, covers_iff, and_iff_right_of_imp]
  rintro ⟨-, hbefore | ⟨-, hend⟩⟩ <;> omega

/-- The answer counts the tasks that are gone. -/
theorem Holds.count_prune (h : s.Holds Linked) (now : Int) :
    (s.prune now).1 + (s.prune now).2.tasks.size = s.tasks.size := by
  have hgone : (s.prune now).1
      = (s.tasks.values.filter fun t => !decide (now ≤ t.stop)).length := by
    simp only [← Int.not_lt, decide_not, Bool.not_not]
    rfl
  rw [h.tasks_prune, ← OrderedMap.length_values, OrderedMap.values_filter, hgone,
    ← OrderedMap.length_values, Nat.add_comm]
  exact (List.length_eq_length_filter_add _).symm

/-- Forgetting changes nothing that anybody may still ask for: from `now` on the power, the task
    at an instant and the energy expected are what they were. A task stays as it is with its
    flexibility until it has ended and then goes with it, no task is added, and the answer is the
    number of tasks that are gone. -/
theorem prune_unseen (hs : Reachable (fun _ => True) s) (now : Int) :
    (∀ t, now ≤ t → (s.prune now).2.powerAt t = s.powerAt t) ∧
    (∀ t stopIncluded, now ≤ t →
      (s.prune now).2.taskIdAt? t stopIncluded = s.taskIdAt? t stopIncluded) ∧
    (∀ start time stored, now ≤ start →
      (s.prune now).2.expectedEnergy start time stored = s.expectedEnergy start time stored) ∧
    (∀ k t, s.tasks.get? k = some t → now ≤ t.stop →
      (s.prune now).2.tasks.get? k = some t ∧ ∃ f, s.flexibilities.get? t.flexibilityId = some f ∧
        (s.prune now).2.flexibilities.get? t.flexibilityId = some f) ∧
    (∀ k t, s.tasks.get? k = some t → t.stop < now →
      (s.prune now).2.tasks.get? k = none ∧
        (s.prune now).2.flexibilities.get? t.flexibilityId = none) ∧
    (∀ k, s.tasks.get? k = none → (s.prune now).2.tasks.get? k = none) ∧
    (s.prune now).1 + (s.prune now).2.tasks.size = s.tasks.size := by
  have h := hs.holds (linkedInvariant _)
  refine ⟨fun t ht => powerAt_prune ht, fun t stopIncluded ht => h.taskIdAt?_prune ht stopIncluded,
    fun start time stored hstart => expectedEnergy_prune hstart time stored,
    fun k t ht hstop => ?_, fun k t ht hstop => ?_, fun k hk => ?_, h.count_prune now⟩
  · obtain ⟨f, hf, hlinked⟩ := h.paired.of_task ht
    rw [hlinked.named, get?_tasks_prune h.paired, get?_flexibilities_prune h.paired, ht]
    refine ⟨by simp [hstop], f, hf, ?_⟩
    rw [if_neg, hf]
    rintro ⟨u, hu, hless⟩
    cases hu
    omega
  · obtain ⟨f, hf, hlinked⟩ := h.paired.of_task ht
    rw [hlinked.named, get?_tasks_prune h.paired, get?_flexibilities_prune h.paired, ht]
    exact ⟨by simp [hstop], if_pos ⟨t, rfl, hstop⟩⟩
  · rw [get?_tasks_prune h.paired, hk]
    rfl

/-- The second day of two charges slowly, from midnight on. -/
def secondDayCharged : DeviceState := DeviceOperation.perform twoWholeDays
  (.schedule 1 86400 (.ofList [(0, 20), (86400, 0)]) 0)

/-- Late in the evening of the second day the first day is forgotten, and the charging, which was
    set at midnight, goes on. -/
theorem prune_unseen_evening :
    ∃ first second, secondDayCharged.tasks.get? 0 = some first ∧ first.stop < 172000 ∧
      secondDayCharged.tasks.get? 1 = some second ∧ 172000 ≤ second.stop ∧
      (secondDayCharged.prune 172000).2.tasks.get? 0 = none ∧
      (secondDayCharged.prune 172000).2.tasks.get? 1 = some second ∧
      (secondDayCharged.prune 172000).2.powerAt 172000 = 20 ∧
      (secondDayCharged.prune 172000).2.taskIdAt? 172000 false = some 1 ∧
      (secondDayCharged.prune 172000).2.expectedEnergy 172000 172700 3000 = 3003 ∧
      (secondDayCharged.prune 172000).1 + (secondDayCharged.prune 172000).2.tasks.size = 2 := by
  have hs : Reachable (fun _ => True) secondDayCharged :=
    (reachable_twoWholeDays.mono fun _ _ => trivial).step trivial
  obtain ⟨hpower, hid, henergy, hkept, hgone, -, hcount⟩ := prune_unseen hs 172000
  have hfirst : secondDayCharged.tasks.get? 0 = some (Task.idle 0 0 true 0 86400) := by
    decide +kernel
  have hsecond : secondDayCharged.tasks.get? 1 = some
      { Task.idle 1 1 true 86400 86400 with power := .ofList [(0, 20), (86400, 0)] } := by
    decide +kernel
  refine ⟨_, _, hfirst, by decide, hsecond, by decide, (hgone 0 _ hfirst (by decide)).1,
    (hkept 1 _ hsecond (by decide)).1, ?_, ?_, ?_, ?_⟩
  · rw [hpower 172000 (Int.le_refl _)]
    decide +kernel
  · rw [hid 172000 false (Int.le_refl _)]
    decide +kernel
  · rw [henergy 172000 172700 3000 (Int.le_refl _)]
    decide +kernel
  · rw [hcount]
    decide +kernel

end DeviceState
end SiteDispatch
