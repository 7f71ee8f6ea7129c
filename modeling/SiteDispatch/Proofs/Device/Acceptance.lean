/-
  SiteDispatch.Proofs.Device.Acceptance

  When a device takes a planned task.

  A task that was planned for a pair of the device is awaited as long as the profile
  fits the flexibility and the task there has not moved. Committing it keeps the start
  of the device's task, so whatever else is awaited stays so. A task that has started
  is committed as a correction over its whole length. The correction replaces every
  entry of the old profile that still counts: the ends of the two profiles agree,
  because a pair admits a single end only.
-/

import SiteDispatch.Proofs.Device.Ordinary
import SiteDispatch.Proofs.Device.Timeline

namespace SiteDispatch
namespace DeviceState

open PowerProfile

/-- The device has a pair for which `planned` was planned: the task there begins when
    the planned one does, and the planned profile fits. -/
def Awaits (s : DeviceState) (planned : Task) : Prop :=
  ∃ f t, s.flexibilities.get? planned.flexibilityId = some f ∧
    s.tasks.get? planned.flexibilityId = some t ∧ t.startingTime = planned.startingTime ∧
    f.Fits planned.startingTime planned.power ∧ ∀ k ∈ planned.power.keys, 0 ≤ k

section Acceptance

variable {s s' : DeviceState} {planned other : Task} {f : Flexibility} {t t' : Task} {k : Int}

/-- Another profile for a task that stays where it is changes nothing that is awaited. -/
theorem Awaits.of_insert (h : s.Awaits other) (hflex : s'.flexibilities = s.flexibilities)
    (htasks : s'.tasks = s.tasks.insert k t') (ht : s.tasks.get? k = some t)
    (hstart : t'.startingTime = t.startingTime) : s'.Awaits other := by
  obtain ⟨g, u, hg, hu, hbegins, hfits, hkeys⟩ := h
  -- Only the task under `k` is another one, and it begins where the old one did.
  by_cases hk : other.flexibilityId = k
  · have hut : u = t := by
      rw [hk, ht, Option.some.injEq] at hu
      exact hu.symm
    refine ⟨g, t', by rw [hflex]; exact hg, ?_, ?_, hfits, hkeys⟩
    · rw [htasks, hk, OrderedMap.get?_insert_self]
    · rw [hstart, ← hut, hbegins]
  · refine ⟨g, u, by rw [hflex]; exact hg, ?_, hbegins, hfits, hkeys⟩
    rw [htasks, OrderedMap.get?_insert_of_ne hk]
    exact hu

/-- An awaited task that begins later is taken. -/
theorem Awaits.schedule (h : s.Holds OrdinaryPair) (hawaits : s.Awaits planned) {now : Int}
    (hnow : now < planned.startingTime) :
    ∃ s', s.schedule planned.flexibilityId planned.startingTime planned.power now = (.ok, s') ∧
      s'.Holds OrdinaryPair ∧ ∀ other, s.Awaits other → s'.Awaits other := by
  obtain ⟨f, t, hf, ht, hbegins, hfits, -⟩ := hawaits
  obtain ⟨t', ht', hpair⟩ := h.paired.of_flexibility hf
  have hassigned := hpair.assigned
  have hstarted : t.hasStarted now = false := by
    rw [Task.hasStarted, hbegins]
    exact decide_eq_false (by omega)
  have htaken := schedule_of_fits hf (hassigned.symm ▸ ht) hstarted hfits
  have hheld : (s.schedule planned.flexibilityId planned.startingTime planned.power now).2.Holds
      OrdinaryPair := h.schedule ordinaryInvariant trivial
  rw [htaken] at hheld
  -- The new task begins where the old one did, so what is awaited does not change.
  refine ⟨_, htaken, hheld, fun other hother => hother.of_insert rfl rfl (hassigned.symm ▸ ht) ?_⟩
  exact hbegins.symm

/-! ## Corrections of whole tasks -/

/-- A correction from offset 0 to the end of a task leaves nothing of its old profile. -/
theorem get?_corrected_whole (hpair : OrdinaryPair k f t) {update : PowerProfile}
    (hlast : update.lastEntry? = some (t.runningTime, 0)) {j : Int} (hj : 0 ≤ j) :
    (corrected t update 0 t.runningTime).2.get? j = update.get? j := by
  obtain ⟨hend, -⟩ := OrderedMap.lastEntry?_eq_some_iff.1 hlast
  obtain ⟨hrest, hmax⟩ := OrderedMap.lastEntry?_eq_some_iff.1 hpair.rests
  have hpower : t.powerAt t.runningTime = 0 := powerAt_of_get? hrest
  -- The old profile has no entry behind the end.
  have hold : (if j < 0 ∨ t.runningTime < j then t.power.get? j else none) = none := by
    split
    · rw [OrderedMap.get?_eq_none_iff]
      intro hmem
      have := hmax j hmem
      omega
    · rfl
  rw [get?_corrected, get?_corrected_update, hold, Option.or_none, hpower]
  split
  · rename_i hj
    rw [hj, hend]
  · rfl

/-- A profile that fits and starts no earlier than its task still fits after it has
    been entered as a correction. -/
theorem fits_corrected_whole (hpair : OrdinaryPair k f t) {update : PowerProfile}
    (hfits : f.Fits t.startingTime update) (hkeys : ∀ k ∈ update.keys, 0 ≤ k) :
    update.firstKey? = some 0 ∧ update.lastKey? = some t.runningTime ∧
      f.Fits t.startingTime (corrected t update 0 t.runningTime).2 := by
  have hlast := hfits.lastEntry? hpair.ends
  have hstop : t.stop - t.startingTime = t.runningTime := by
    rw [Task.stop]
    omega
  rw [hstop] at hlast
  have hfirst : update.firstKey? = some 0 :=
    OrderedMap.firstKey?_eq_some_iff.2 ⟨hfits.starts, fun j hj => Int.not_lt.2 (hkeys j hj)⟩
  -- From offset 0 on the corrected profile is the update.
  have hget := fun j => get?_corrected_whole hpair hlast (j := j)
  refine ⟨hfirst, OrderedMap.lastKey?_eq_of_lastEntry hlast, ?_⟩
  obtain ⟨hend, hmax⟩ := OrderedMap.lastEntry?_eq_some_iff.1 hlast
  have hzero : 0 ∈ (corrected t update 0 t.runningTime).2.keys := by
    rw [OrderedMap.mem_keys_iff_get?, hget 0 (Int.le_refl 0), ← OrderedMap.mem_keys_iff_get?]
    exact hfits.starts
  refine hfits.of_agree hzero ?_ ?_ ?_
  · -- Whatever lies before offset 0 comes before the end, too.
    rw [hlast, OrderedMap.lastEntry?_eq_some_iff]
    refine ⟨by rw [hget _ hpair.lasting, hend], fun j hj => ?_⟩
    by_cases hneg : j < 0
    · have := hpair.lasting
      omega
    · rw [OrderedMap.mem_keys_iff_get?, hget j (by omega), ← OrderedMap.mem_keys_iff_get?] at hj
      exact hmax j hj
  · intro u hu
    rw [PowerProfile.powerAt, PowerProfile.powerAt,
      OrderedMap.floorValue?_congr_from hfits.starts hu fun j hj _ => hget j hj]
  · intro j hj hpos
    rw [OrderedMap.mem_keys_iff_get?, hget j hpos.le, ← OrderedMap.mem_keys_iff_get?] at hj
    exact hj

/-- An awaited task is taken as a correction. -/
theorem Awaits.adapt (h : s.Holds OrdinaryPair) (hawaits : s.Awaits planned) :
    ∃ s', s.adapt planned.flexibilityId planned.power = (.ok, s') ∧
      s'.Holds OrdinaryPair ∧ ∀ other, s.Awaits other → s'.Awaits other := by
  obtain ⟨f, t, hf, ht, hbegins, hfits, hkeys⟩ := hawaits
  have hpair : OrdinaryPair planned.flexibilityId f t := by
    obtain ⟨t', ht', hpair⟩ := h.paired.of_flexibility hf
    rw [ht, Option.some.injEq] at ht'
    rw [ht']
    exact hpair
  have ht' : s.tasks.get? f.taskId = some t := hpair.assigned.symm ▸ ht
  rw [← hbegins] at hfits
  obtain ⟨hfirst, hlast, hwhole⟩ := fits_corrected_whole hpair hfits hkeys
  have htaken := adapt_of_fits hf hpair.offered ht' hfirst hlast hwhole
  have hheld := h.adapt ordinaryInvariant planned.flexibilityId planned.power
  rw [htaken] at hheld
  exact ⟨_, htaken, hheld, fun other hother => hother.of_insert rfl rfl ht' rfl⟩

end Acceptance

end DeviceState
end SiteDispatch
