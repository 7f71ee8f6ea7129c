/-
  SiteDispatch.Proofs.Device.RepairPass

  One pass of the repair is enough.

  The repair edits the timeline that it follows, but only behind itself: a stretch is judged once,
  by the power that is still the committed one, and what the pass leaves there stays. So what it
  has counted is what anybody counts who follows the repaired timeline from the same start, and a
  second pass meets no stretch that leaves the limits. Nothing is asked of the state: its tasks
  may overlap, and the energy may be outside the limits to begin with.
-/

import SiteDispatch.Proofs.Device.Repair
import SiteDispatch.Proofs.Device.Tracking

namespace SiteDispatch

open PowerProfile

/-! ## Staying within the limits -/

/-- From `t` along `later`, with `stored` Wh at first and every stretch converted to whole Wh, no
    charging stretch ends above `high` and no discharging one below `low`. -/
def PowerTimeline.StaysAlong (line : PowerTimeline) (low high : Int) :
    Int → List Int → Int → Prop
  | _, [], _ => True
  | t, next :: later, stored =>
    (0 < powerAt line t → stored + Quantity.wattHours ((next - t) * powerAt line t) ≤ high) ∧
    (powerAt line t < 0 → low ≤ stored + Quantity.wattHours ((next - t) * powerAt line t)) ∧
    StaysAlong line low high next later
      (stored + Quantity.wattHours ((next - t) * powerAt line t))

namespace DeviceState

section Along

variable {low high time : Int} {later : List Int} {r : Repair}

/-- A stretch at rest leaves no limits. -/
theorem ne_zero_of_leavesLimits {power stored : Int}
    (h : leavesLimits low high power stored = true) : power ≠ 0 := by
  rintro rfl
  rw [leavesLimits_eq_false_iff.2 ⟨fun h => absurd h (Int.lt_irrefl 0),
    fun h => absurd h (Int.lt_irrefl 0)⟩] at h
  cases h

/-- What the repair leaves behind stays within the limits by its own count. -/
theorem staysAlong_repairAlong (hasc : (time :: later).Pairwise (· < ·)) :
    PowerTimeline.StaysAlong (repairAlong low high time later r).timeline low high time later
      r.stored := by
  induction later generalizing time r with
  | nil => trivial
  | cons next later ih =>
      obtain ⟨htime, hrest⟩ := List.pairwise_cons.1 hasc
      have hlt := htime next List.mem_cons_self
      rw [repairAlong, PowerTimeline.StaysAlong]
      split
      · -- A stretch that was set to rest delivers nothing.
        rw [powerAt_repairAlong hrest hlt, powerAt_of_get? (OrderedMap.get?_insert_self _ _ _),
          Int.mul_zero, show Quantity.wattHours 0 = 0 from rfl, Int.add_zero]
        exact ⟨fun h => absurd h (Int.lt_irrefl 0), fun h => absurd h (Int.lt_irrefl 0), ih hrest⟩
      · rename_i hleaves
        rw [powerAt_repairAlong hrest hlt]
        obtain ⟨hup, hdown⟩ := leavesLimits_eq_false_iff.1 (Bool.eq_false_iff.2 hleaves)
        exact ⟨hup, hdown, ih hrest⟩

/-- A timeline that stays within the limits is not repaired. -/
theorem repairAlong_of_staysAlong
    (h : PowerTimeline.StaysAlong r.timeline low high time later r.stored) :
    ∃ stored, repairAlong low high time later r = { r with stored := stored } := by
  induction later generalizing time r with
  | nil => exact ⟨r.stored, rfl⟩
  | cons next later ih =>
      obtain ⟨hup, hdown, hrest⟩ := h
      have hkeeps := leavesLimits_eq_false_iff.2 ⟨hup, hdown⟩
      rw [repairAlong, if_neg (Bool.eq_false_iff.1 hkeeps)]
      exact ih hrest

theorem onlyRests_repairAlong {line : PowerTimeline} (h : line.OnlyRests r.timeline) :
    line.OnlyRests (repairAlong low high time later r).timeline := by
  induction later generalizing time r with
  | nil => exact h
  | cons next later ih =>
      rw [repairAlong]
      split
      · exact ih (h.rest time)
      · exact ih h

/-- The last breakpoint is not repaired, for nothing is known of how long it lasts. -/
theorem get?_repairAlong_of_last (hasc : (time :: later).Pairwise (· < ·)) {j : Int}
    (hj : ∀ k ∈ later, k ≤ j) :
    (repairAlong low high time later r).timeline.get? j = r.timeline.get? j := by
  induction later generalizing time r with
  | nil => rfl
  | cons next later ih =>
      obtain ⟨htime, hrest⟩ := List.pairwise_cons.1 hasc
      have hne : j ≠ time := by
        have := htime next List.mem_cons_self
        have := hj next List.mem_cons_self
        omega
      have hj' : ∀ k ∈ later, k ≤ j := fun k hk => hj k (List.mem_cons_of_mem _ hk)
      rw [repairAlong]
      split
      · rw [ih hrest hj']
        exact OrderedMap.get?_insert_of_ne hne
      · exact ih hrest hj'

/-- A repair that had set nothing to rest answers the earliest instant whose power it has
    changed, or 0 if there is none. -/
theorem first_repairAlong (hasc : (time :: later).Pairwise (· < ·)) (htime : 0 < time)
    (hr : r.first = 0) :
    let done := repairAlong low high time later r
    (done.first = 0 ∧ ∀ t, PowerProfile.powerAt done.timeline t
        = PowerProfile.powerAt r.timeline t) ∨
      (done.first ≠ 0 ∧ PowerProfile.powerAt done.timeline done.first
          ≠ PowerProfile.powerAt r.timeline done.first ∧
        ∀ t, t < done.first → PowerProfile.powerAt done.timeline t
          = PowerProfile.powerAt r.timeline t) := by
  induction later generalizing time r with
  | nil => exact .inl ⟨hr, fun _ => rfl⟩
  | cons next later ih =>
      obtain ⟨hnext, hrest⟩ := List.pairwise_cons.1 hasc
      have hlt := hnext next List.mem_cons_self
      rw [repairAlong]
      split
      · -- This stretch is the first one, and the later ones leave it at rest.
        rename_i hleaves
        have hanswer : (repairAlong low high next later
            { timeline := r.timeline.insert time 0
              tasks := restTaskAt r.tasks time
              stored := r.stored
              first := time }).first = time := first_repairAlong_of_ne_zero htime.ne'
        right
        rw [hanswer]
        refine ⟨htime.ne', ?_, fun t ht => ?_⟩
        · rw [powerAt_repairAlong hrest hlt, powerAt_of_get? (OrderedMap.get?_insert_self _ _ _)]
          exact (ne_zero_of_leavesLimits hleaves).symm
        · rw [powerAt_repairAlong hrest (by omega)]
          exact powerAt_congr fun j hj => OrderedMap.get?_insert_of_ne (by omega)
      · exact ih hrest (by omega) hr

end Along

/-! ## The task that is brought into its shortest form -/

/-- The tasks with the one that covers `now` in its shortest form. -/
def shortenTaskAt (tasks : OrderedMap Int Task) (now : Int) : OrderedMap Int Task :=
  match tasks.values.find? (covers now false) with
  | none => tasks
  | some found => tasks.modify found.id Task.compress

theorem shortenTaskAt_shortenTaskAt (tasks : OrderedMap Int Task) (now : Int) :
    shortenTaskAt (shortenTaskAt tasks now) now = shortenTaskAt tasks now := by
  cases hfind : tasks.values.find? (covers now false) with
  | none => simp only [shortenTaskAt, hfind]
  | some found =>
      have hsame := tasks.find?_values_modify found.id (p := covers now false)
        (g := Task.compress) (f := (·.id)) (fun _ => rfl) (fun _ => rfl)
      rw [hfind, Option.map_some, Option.map_eq_some_iff] at hsame
      obtain ⟨found', hfind', hid⟩ := hsame
      simp only [shortenTaskAt, hfind, hfind', hid]
      -- A shortest form is not shortened any more.
      apply OrderedMap.ext_get?
      intro k
      simp only [OrderedMap.get?_modify]
      by_cases hk : k = found.id
      · rw [if_pos hk, if_pos hk, Option.map_map]
        refine congrArg (Option.map · _) (funext fun t => ?_)
        exact congrArg (fun power => { t with power := power })
          (compress_compress t.power t.runningTime)
      · rw [if_neg hk, if_neg hk]

/-! ## The pass -/

variable {s : DeviceState} {now stored low high : Int}

theorem repair_eq (s : DeviceState) (now stored low high : Int) :
    s.repair now stored low high =
      let done := repairAlong low high now (s.scheduledPower.keys.filter fun k => now < k)
        ⟨s.scheduledPower, s.tasks, stored, 0⟩
      (done.first, { s with
        tasks := shortenTaskAt done.tasks now
        scheduledPower := done.timeline }) := rfl

/-- A schedule in which the timeline stays within the limits and the running task has its shortest
    form is not changed by a repair. -/
theorem repair_of_stays
    (hstays : PowerTimeline.StaysAlong s.scheduledPower low high now
      (s.scheduledPower.keys.filter fun k => now < k) stored)
    (hshort : shortenTaskAt s.tasks now = s.tasks) :
    s.repair now stored low high = (0, s) := by
  obtain ⟨stored', hdone⟩ := repairAlong_of_staysAlong
    (r := ⟨s.scheduledPower, s.tasks, stored, 0⟩) hstays
  rw [repair_eq, hdone]
  dsimp only
  rw [hshort]

/-- What a repair from `now` on, with `stored` Wh held, makes of a state. -/
structure RepairedOnce (s : DeviceState) (now stored low high first : Int) (s' : DeviceState) :
    Prop where
  /-- Power is kept or set to 0 W. -/
  rests : ∀ t, s'.powerAt t = s.powerAt t ∨ s'.powerAt t = 0
  past : ∀ t, t < now → s'.powerAt t = s.powerAt t
  /-- From the last breakpoint on the power is kept. -/
  afterwards : ∀ last, s.scheduledPower.lastKey? = some last →
    ∀ t, last ≤ t → s'.powerAt t = s.powerAt t
  stays : PowerTimeline.StaysAlong s'.scheduledPower low high now
    (s'.scheduledPower.keys.filter fun k => now < k) stored
  none_changed : first = 0 ↔ ∀ t, s'.powerAt t = s.powerAt t
  first_changed : first ≠ 0 → s'.powerAt first ≠ s.powerAt first ∧
    ∀ t, t < first → s'.powerAt t = s.powerAt t
  /-- Another repair from the same start finds nothing to do, and the state stays. -/
  once : s'.repair now stored low high = (0, s')

/-- After the epoch a repair does its work in one pass, whatever the state and the limits are. -/
theorem repair_once (s : DeviceState) (now stored low high : Int) (hnow : 0 < now) :
    s.RepairedOnce now stored low high (s.repair now stored low high).1
      (s.repair now stored low high).2 := by
  have hasc := pairwise_breakpointsAfter s.scheduledPower now
  have hstays : PowerTimeline.StaysAlong (s.repair now stored low high).2.scheduledPower low high
      now ((s.repair now stored low high).2.scheduledPower.keys.filter fun k => now < k) stored := by
    rw [breakpointsAfter_repair]
    exact staysAlong_repairAlong (r := ⟨s.scheduledPower, s.tasks, stored, 0⟩) hasc
  have hfirst := @first_repairAlong low high now _ ⟨s.scheduledPower, s.tasks, stored, 0⟩ hasc
    hnow rfl
  have honly : s.scheduledPower.OnlyRests (s.repair now stored low high).2.scheduledPower :=
    onlyRests_repairAlong fun j => .inr rfl
  refine ⟨fun t => (honly.powerAt t).symm, fun t ht => powerAt_repairAlong hasc ht, ?_, hstays,
    ?_, ?_, repair_of_stays hstays (shortenTaskAt_shortenTaskAt _ now)⟩
  · intro last hlast t ht
    obtain ⟨hmem, hmax⟩ := OrderedMap.lastKey?_eq_some_iff.1 hlast
    rw [powerAt, powerAt, PowerProfile.powerAt, PowerProfile.powerAt,
      OrderedMap.floorValue?_congr_from hmem ht]
    intro j hj _
    refine get?_repairAlong_of_last hasc fun k hk => ?_
    exact (Int.not_lt.1 (hmax k (List.mem_filter.1 hk).1)).trans hj
  · rcases hfirst with ⟨hzero, hsame⟩ | ⟨hne, hchanged, -⟩
    · exact iff_of_true hzero hsame
    · exact iff_of_false hne fun hsame => hchanged (hsame _)
  · intro hne
    rcases hfirst with ⟨hzero, -⟩ | ⟨-, hchanged, hbefore⟩
    · exact absurd hzero hne
    · exact ⟨hchanged, hbefore⟩

/-- Charging 1000 W for two hours from 1400 Wh below the limit: one pass sets the second hour to
    rest. -/
theorem repair_once_twoHours :
    let s := DeviceOperation.perform dayOffered
      (.adapt 0 (.ofList [(0, 1000), (3600, 1000), (7200, 0)]))
    s.RepairedOnce 86400 4000 600 5400 90000 (s.repair 86400 4000 600 5400).2 ∧
      s.powerAt 90000 = 1000 ∧ (s.repair 86400 4000 600 5400).2.powerAt 90000 = 0 := by
  intro s
  have hfirst : (s.repair 86400 4000 600 5400).1 = 90000 := by decide +kernel
  have honce := repair_once s 86400 4000 600 5400 (by decide)
  rw [hfirst] at honce
  exact ⟨honce, by decide +kernel, by decide +kernel⟩

end DeviceState
end SiteDispatch
