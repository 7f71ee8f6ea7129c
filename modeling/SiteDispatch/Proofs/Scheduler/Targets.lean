/-
  SiteDispatch.Proofs.Scheduler.Targets

  Which agreed target is in force.

  The lookup looks at one target only, the last one that has begun. Whatever it answers covers the
  instant, but a target that is over hides all those that began before it, however long they last:
  they come back into view when it is forgotten.
-/

import SiteDispatch.Proofs.OrderedMap.StepFunction
import SiteDispatch.Scheduler.State

namespace SiteDispatch

namespace PublicSchedule

/-- The instant lies in one of the slots. -/
def Covers (t : PublicSchedule) (now : Int) : Prop := t.startingTime ≤ now ∧ now < t.stop

/-- The schedule has begun and ended by `now`. -/
def Over (t : PublicSchedule) (now : Int) : Prop := t.startingTime ≤ now ∧ t.stop ≤ now

instance (t : PublicSchedule) (now : Int) : Decidable (t.Covers now) :=
  inferInstanceAs (Decidable (_ ∧ _))

instance (t : PublicSchedule) (now : Int) : Decidable (t.Over now) :=
  inferInstanceAs (Decidable (_ ∧ _))

end PublicSchedule

/-! ## What happens to targets -/

/-- What can be done to the agreed targets. -/
inductive TargetOperation
  | add (target : PublicSchedule)
  | prune (now : Int)

/-- The state an operation leaves behind. -/
def TargetOperation.perform (s : SchedulerState) : TargetOperation → SchedulerState
  | add target => s.addTarget target
  | prune now => (s.pruneTargets now).2

namespace SchedulerState

variable {s : SchedulerState} {t u : PublicSchedule} {now : Int}

/-- Every target is kept under its start. -/
def Keyed (s : SchedulerState) : Prop :=
  ∀ k t, s.targets.get? k = some t → t.startingTime = k

theorem get?_addTarget (s : SchedulerState) (target : PublicSchedule) (k : Int) :
    (s.addTarget target).targets.get? k
      = if k = target.startingTime then some target else s.targets.get? k :=
  OrderedMap.get?_insert _ _ _ _

theorem get?_pruneTargets (s : SchedulerState) (now k : Int) :
    (s.pruneTargets now).2.targets.get? k
      = (s.targets.get? k).filter fun t => now < t.stop :=
  OrderedMap.get?_filter _ _ _

theorem Keyed.perform (h : s.Keyed) (op : TargetOperation) : (op.perform s).Keyed := by
  intro k t hk
  cases op with
  | add target =>
      rw [TargetOperation.perform, get?_addTarget] at hk
      split at hk
      · rename_i hstart
        rw [hstart, Option.some.inj hk]
      · exact h k t hk
  | prune now =>
      rw [TargetOperation.perform, get?_pruneTargets, Option.filter_eq_some_iff] at hk
      exact h k t hk.1

/-- The state after several operations on a scheduler that has not done anything yet. -/
def afterTargets (ops : List TargetOperation) : SchedulerState :=
  ops.foldl TargetOperation.perform fresh

theorem keyed_afterTargets (ops : List TargetOperation) : (afterTargets ops).Keyed := by
  have hrun : ∀ (ops : List TargetOperation) (s : SchedulerState), s.Keyed →
      (ops.foldl TargetOperation.perform s).Keyed := by
    intro ops
    induction ops with
    | nil => exact fun _ h => h
    | cons op rest ih => exact fun s h => ih _ (h.perform op)
  exact hrun ops fresh fun k t hk => nomatch hk

/-! ## The target in force -/

theorem Keyed.mem_values_iff (h : s.Keyed) :
    t ∈ s.targets.values ↔ s.targets.get? t.startingTime = some t := by
  rw [OrderedMap.mem_values_iff_get?]
  constructor
  · rintro ⟨k, hk⟩
    rwa [h k t hk]
  · exact fun ht => ⟨_, ht⟩

/-- No two targets begin together. -/
theorem Keyed.eq_of_startingTime_eq (h : s.Keyed) (ht : t ∈ s.targets.values)
    (hu : u ∈ s.targets.values) (hstart : t.startingTime = u.startingTime) : t = u := by
  rw [h.mem_values_iff] at ht hu
  rw [hstart, hu] at ht
  exact (Option.some.inj ht).symm

/-- The last target that has begun. -/
theorem Keyed.floorValue?_eq_some_iff (h : s.Keyed) :
    s.targets.floorValue? now = some t ↔
      t ∈ s.targets.values ∧ t.startingTime ≤ now ∧
        ∀ u ∈ s.targets.values, u.startingTime ≤ now → u.startingTime ≤ t.startingTime := by
  rw [OrderedMap.floorValue?_eq_some_iff, h.mem_values_iff]
  constructor
  · rintro ⟨k, hk, hle, hnone⟩
    obtain rfl := h k t hk
    refine ⟨hk, hle, fun u hu hbegun => ?_⟩
    by_contra hlater
    rw [h.mem_values_iff, hnone _ (by omega) hbegun] at hu
    cases hu
  · rintro ⟨hget, hle, hlast⟩
    refine ⟨_, hget, hle, fun j hj hjn => ?_⟩
    by_contra hsome
    obtain ⟨u, hu⟩ := Option.ne_none_iff_exists'.1 hsome
    obtain rfl := h j u hu
    have := hlast u (h.mem_values_iff.2 hu) hjn
    omega

theorem Keyed.targetInForce?_eq_some_iff (h : s.Keyed) :
    s.targetInForce? now = some t ↔
      t ∈ s.targets.values ∧ t.Covers now ∧
        ∀ u ∈ s.targets.values, u.startingTime ≤ now → u.startingTime ≤ t.startingTime := by
  rw [targetInForce?, Option.filter_eq_some_iff, h.floorValue?_eq_some_iff, decide_eq_true_eq,
    PublicSchedule.Covers]
  tauto

/-- A target in force is found unless the last one that has begun is over. -/
theorem Keyed.isSome_targetInForce?_iff (h : s.Keyed) :
    (s.targetInForce? now).isSome ↔ ∃ t ∈ s.targets.values, t.Covers now ∧
      ∀ u ∈ s.targets.values, u.Over now → u.startingTime < t.startingTime := by
  rw [Option.isSome_iff_exists]
  constructor
  · rintro ⟨t, ht⟩
    obtain ⟨hmem, hcovers, hlast⟩ := h.targetInForce?_eq_some_iff.1 ht
    refine ⟨t, hmem, hcovers, fun u hu hover => ?_⟩
    refine Int.lt_iff_le_and_ne.2 ⟨hlast u hu hover.1, fun hstart => ?_⟩
    -- A target that is over does not cover the instant.
    obtain rfl := h.eq_of_startingTime_eq hu hmem hstart
    exact absurd hcovers.2 (Int.not_lt.2 hover.2)
  · rintro ⟨t, ht, hcovers, hover⟩
    have hkey : t.startingTime ∈ s.targets.keys :=
      OrderedMap.mem_keys_iff_get?.2 ⟨t, h.mem_values_iff.1 ht⟩
    obtain ⟨v, hv⟩ := OrderedMap.exists_floorValue?_of_key hkey hcovers.1
    obtain ⟨hmem, hbegun, hlast⟩ := h.floorValue?_eq_some_iff.1 hv
    refine ⟨v, h.targetInForce?_eq_some_iff.2 ⟨hmem, ⟨hbegun, ?_⟩, hlast⟩⟩
    -- Were the last one over, it would have begun before the one that covers.
    by_contra hended
    have hbefore := hover v hmem ⟨hbegun, Int.not_lt.1 hended⟩
    have hafter := hlast t ht hcovers.1
    omega

theorem mem_values_pruneTargets :
    t ∈ (s.pruneTargets now).2.targets.values ↔ t ∈ s.targets.values ∧ now < t.stop := by
  simp only [OrderedMap.mem_values_iff_get?, get?_pruneTargets, Option.filter_eq_some_iff,
    decide_eq_true_eq, exists_and_right]

/-- After any additions and prunings the target that is answered is stored and covers the instant,
    and no other has begun later. There is an answer if and only if some stored target covers the
    instant and began after all those that are over. Pruning at the instant forgets these, so that
    afterwards a covering target is always found. -/
theorem covering_target_found_iff (ops : List TargetOperation) (now : Int) :
    (∀ t, (afterTargets ops).targetInForce? now = some t ↔
      t ∈ (afterTargets ops).targets.values ∧ t.Covers now ∧
        ∀ u ∈ (afterTargets ops).targets.values, u.startingTime ≤ now →
          u.startingTime ≤ t.startingTime) ∧
    (((afterTargets ops).targetInForce? now).isSome ↔
      ∃ t ∈ (afterTargets ops).targets.values, t.Covers now ∧
        ∀ u ∈ (afterTargets ops).targets.values, u.Over now →
          u.startingTime < t.startingTime) ∧
    (((afterTargets (ops ++ [.prune now])).targetInForce? now).isSome ↔
      ∃ t ∈ (afterTargets ops).targets.values, t.Covers now) := by
  have h := keyed_afterTargets ops
  refine ⟨fun t => h.targetInForce?_eq_some_iff, h.isSome_targetInForce?_iff, ?_⟩
  have hpruned : afterTargets (ops ++ [.prune now]) = ((afterTargets ops).pruneTargets now).2 := by
    rw [afterTargets, List.foldl_append]
    rfl
  rw [(keyed_afterTargets _).isSome_targetInForce?_iff, hpruned]
  constructor
  · rintro ⟨t, ht, hcovers, -⟩
    exact ⟨t, (mem_values_pruneTargets.1 ht).1, hcovers⟩
  · rintro ⟨t, ht, hcovers⟩
    refine ⟨t, mem_values_pruneTargets.2 ⟨ht, hcovers.2⟩, hcovers, fun u hu hover => ?_⟩
    exact absurd (mem_values_pruneTargets.1 hu).2 (Int.not_lt.2 hover.2)

/-- A schedule agreed for a day and an update of its ninth hour. -/
def dayWithUpdate : SchedulerState :=
  afterTargets [.add (.zero 0 0 3600 24), .add (.zero 28000 28800 3600 1)]

/-- From the end of that hour on no target is found, although the day goes on. -/
theorem update_hides_day :
    (∃ t ∈ dayWithUpdate.targets.values, t.Covers 36000) ∧
      dayWithUpdate.targetInForce? 36000 = none := by
  decide

end SchedulerState
end SiteDispatch
