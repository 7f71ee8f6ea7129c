/-
  SiteDispatch.Proofs.Device.Resting

  What a repair does to the tasks of a device.

  Each breakpoint that is set to rest is set on the timeline and in the task that is running
  there, provided that no other task is running. At the end the task that is running when the
  repair is made is brought into its shortest form; the timeline is not.
-/

import SiteDispatch.Proofs.Device.Tasks
import SiteDispatch.Proofs.Device.Tracking

namespace SiteDispatch

open PowerProfile

namespace DeviceState

section Repair

variable {line line' : PowerTimeline} {t t' : Task} {time : Int}

/-- A breakpoint that is set while the task is not running. -/
theorem RestsWith.outside (h : PowerTimeline.RestsWith line line' t t')
    (hout : ¬ covers time false t') :
    PowerTimeline.RestsWith line (OrderedMap.insert line' time 0) t t' where
  start := h.start
  length := h.length
  entries i h0 hi := by
    have hne : t.startingTime + i ≠ time := by
      rintro rfl
      rw [covers_iff, Task.stop, h.start, h.length] at hout
      exact hout ⟨by omega, .inl (by omega)⟩
    rw [OrderedMap.get?_insert_of_ne hne]
    exact h.entries i h0 hi

/-- A breakpoint that is set while the task is running is set on both sides. -/
theorem RestsWith.inside (h : PowerTimeline.RestsWith line line' t t')
    (hcovers : covers time false t') (hshort : t.runningTime ≤ Quantity.greatest) :
    PowerTimeline.RestsWith line (OrderedMap.insert line' time 0) t
      { t' with power := t'.power.insert (Quantity.low32 (time - t'.startingTime)) 0 } where
  start := h.start
  length := h.length
  entries i h0 hi := by
    rw [covers_iff, Task.stop, h.start, h.length] at hcovers
    simp only [Bool.false_eq_true, false_and, or_false] at hcovers
    -- The offset fits the narrow range, as the length of the task does.
    have hoffset : Quantity.low32 (time - t'.startingTime) = time - t.startingTime := by
      rw [h.start]
      apply Quantity.low32_eq_self
      · simp only [Quantity.least]
        omega
      · omega
    show ((t'.power.insert (Quantity.low32 (time - t'.startingTime)) 0).get? i = some 0 ∧ _) ∨
      ((t'.power.insert (Quantity.low32 (time - t'.startingTime)) 0).get? i = _ ∧ _)
    rw [hoffset, OrderedMap.get?_insert, OrderedMap.get?_insert]
    by_cases htime : t.startingTime + i = time
    · rw [if_pos (by omega), if_pos htime]
      exact .inl ⟨rfl, rfl⟩
    · rw [if_neg (by omega), if_neg htime]
      exact h.entries i h0 hi

/-- A repair under way: nothing but rest has been set, and of each task the same as of the
    timeline. -/
structure Rests (line : PowerTimeline) (tasks : OrderedMap Int Task) (r : DeviceState.Repair) :
    Prop where
  only : line.OnlyRests r.timeline
  tasks : ∀ k, (tasks.get? k = none ∧ r.tasks.get? k = none) ∨
    ∃ t t', tasks.get? k = some t ∧ r.tasks.get? k = some t' ∧
      PowerTimeline.RestsWith line r.timeline t t'

variable {allowed : DeviceOperation → Prop} {P : Int → Flexibility → Task → Prop}
  {fs : OrderedMap Int Flexibility} {s : DeviceState} {r : DeviceState.Repair}

/-- One breakpoint is set to rest, on the timeline and in the one task that is running. -/
theorem Rests.rest (h : Rests s.scheduledPower s.tasks r) (hinv : PairInvariant allowed P)
    (hshort : ∀ {k f t}, P k f t → t.runningTime ≤ Quantity.greatest)
    (hpaired : Paired P fs r.tasks) (hsep : s.Separate) (time stored first : Int) :
    Rests s.scheduledPower s.tasks
      ⟨r.timeline.insert time 0, restTaskAt r.tasks time, stored, first⟩ where
  only := h.only.rest time
  tasks k := by
    show (_ ∧ (restTaskAt r.tasks time).get? k = none) ∨ ∃ t t', _ ∧
      (restTaskAt r.tasks time).get? k = some t' ∧
        PowerTimeline.RestsWith s.scheduledPower (r.timeline.insert time 0) t t'
    rw [restTaskAt]
    split
    · -- No task is running.
      rename_i hfind
      refine (h.tasks k).imp_right ?_
      rintro ⟨t, t', ht, ht', hrests⟩
      refine ⟨t, t', ht, ht', RestsWith.outside hrests ?_⟩
      exact List.find?_eq_none.1 hfind t' (OrderedMap.mem_values_iff_get?.2 ⟨k, ht'⟩)
    · rename_i found hfind
      obtain ⟨hget, hcovers⟩ := hpaired.get?_of_find? hinv hfind
      rw [OrderedMap.get?_modify]
      rcases h.tasks k with ⟨ht, ht'⟩ | ⟨t, t', ht, ht', hrests⟩
      · left
        rw [ht']
        exact ⟨ht, by split <;> rfl⟩
      · right
        by_cases hk : k = found.id
        · subst hk
          rw [ht', Option.some.injEq] at hget
          subst hget
          obtain ⟨f, -, hpair⟩ := hpaired.of_task ht'
          have hlength := hshort hpair
          rw [hrests.length] at hlength
          rw [ht', if_pos rfl]
          exact ⟨t, _, ht, rfl, RestsWith.inside hrests hcovers hlength⟩
        · -- While another task is running this one is not.
          rw [if_neg hk]
          refine ⟨t, t', ht, ht', RestsWith.outside hrests fun hboth => ?_⟩
          rcases h.tasks found.id with ⟨-, hnone⟩ | ⟨u, u', hu, hu', hrests'⟩
          · rw [hget] at hnone
            cases hnone
          · rw [hget, Option.some.injEq] at hu'
            subst hu'
            have hapart := hsep.apart k found.id t u ht hu hk
            rw [covers_iff, Task.stop, hrests.start, hrests.length] at hboth
            rw [covers_iff, Task.stop, hrests'.start, hrests'.length] at hcovers
            simp only [Task.stop, Bool.false_eq_true, false_and, or_false] at *
            omega

theorem Rests.repairAlong (h : Rests s.scheduledPower s.tasks r)
    (hinv : PairInvariant allowed P)
    (hshort : ∀ {k f t}, P k f t → t.runningTime ≤ Quantity.greatest)
    (hpaired : Paired P fs r.tasks) (hsep : s.Separate) (low high time : Int)
    (later : List Int) :
    Rests s.scheduledPower s.tasks (repairAlong low high time later r) := by
  induction later generalizing time r with
  | nil => exact h
  | cons next later ih =>
      rw [DeviceState.repairAlong]
      split
      · exact ih (h.rest hinv hshort hpaired hsep time _ _) (hpaired.restTaskAt hinv time) next
      · refine ih ?_ ?_ next
        · exact ⟨h.only, h.tasks⟩
        · exact hpaired

/-- A repair sets the same breakpoints of timeline and tasks to rest. The task that is running
    is brought into its shortest form. -/
theorem repair_cases (hinv : PairInvariant allowed P)
    (hshort : ∀ {k f t}, P k f t → t.runningTime ≤ Quantity.greatest) (hheld : s.Holds P)
    (hsep : s.Separate) (now stored low high : Int) :
    PowerTimeline.OnlyRests s.scheduledPower (s.repair now stored low high).2.scheduledPower ∧
    ∀ k, (s.tasks.get? k = none ∧ (s.repair now stored low high).2.tasks.get? k = none) ∨
      ∃ t t', s.tasks.get? k = some t ∧ PowerTimeline.RestsWith s.scheduledPower
          (s.repair now stored low high).2.scheduledPower t t' ∧
        ((s.repair now stored low high).2.tasks.get? k = some t' ∨
          (s.repair now stored low high).2.tasks.get? k = some t'.compress) := by
  have hstart : Rests s.scheduledPower s.tasks ⟨s.scheduledPower, s.tasks, stored, 0⟩ := by
    refine ⟨fun j => .inr rfl, fun k => ?_⟩
    cases s.tasks.get? k with
    | none => exact .inl ⟨rfl, rfl⟩
    | some t => exact .inr ⟨t, t, rfl, rfl, rfl, rfl, fun i _ _ => .inr ⟨rfl, rfl⟩⟩
  have hdone := hstart.repairAlong hinv hshort hheld.paired hsep low high now
    (s.scheduledPower.keys.filter fun k => now < k)
  refine ⟨hdone.only, fun k => ?_⟩
  -- What is left to do is the shortest form of the one task that is running.
  simp only [repair]
  split
  · refine (hdone.tasks k).imp_right ?_
    rintro ⟨t, t', ht, ht', hrests⟩
    exact ⟨t, t', ht, hrests, .inl ht'⟩
  · rename_i found hfound
    refine (hdone.tasks k).imp ?_ ?_
    · rintro ⟨ht, ht'⟩
      rw [OrderedMap.get?_modify, ht']
      exact ⟨ht, by split <;> rfl⟩
    · rintro ⟨t, t', ht, ht', hrests⟩
      rw [OrderedMap.get?_modify, ht']
      refine ⟨t, t', ht, hrests, ?_⟩
      split
      · exact .inr rfl
      · exact .inl rfl

/-- Every task that a repair leaves is one that it found, at rest where the timeline is,
    possibly in its shortest form. -/
theorem forall_repaired {Q : Task → Prop} (hinv : PairInvariant allowed P)
    (hshort : ∀ {k f t}, P k f t → t.runningTime ≤ Quantity.greatest) (hheld : s.Holds P)
    (hsep : s.Separate) {now stored low high : Int}
    (hrested : ∀ {k t u}, s.tasks.get? k = some t → PowerTimeline.RestsWith s.scheduledPower
      (s.repair now stored low high).2.scheduledPower t u → Q u)
    (hcompressed : ∀ {u : Task}, Q u → Q u.compress) {k : Int}
    (ht' : (s.repair now stored low high).2.tasks.get? k = some t') : Q t' := by
  obtain ⟨-, htasks⟩ := repair_cases hinv hshort hheld hsep now stored low high
  rcases htasks k with ⟨-, hnone⟩ | ⟨t, u, ht, hrests, hu | hu⟩
  · rw [hnone] at ht'
    cases ht'
  · rw [hu, Option.some.injEq] at ht'
    exact ht' ▸ hrested ht hrests
  · rw [hu, Option.some.injEq] at ht'
    exact ht' ▸ hcompressed (hrested ht hrests)

end Repair

end DeviceState
end SiteDispatch
