/-
  SiteDispatch.Proofs.Device.Repair

  How far the energy that a repair leaves behind keeps the limits.

  The repair counts in whole Wh, one stretch of the timeline after the other, and what it
  counts keeps the limits at every breakpoint. What is expected of the repaired timeline is
  counted in Ws and converted once. Every stretch that is not a whole number of Wh drops less
  than one Wh on the way, so the two counts differ by the number of these stretches at most.
-/

import SiteDispatch.Proofs.Device.Limits

namespace SiteDispatch

open PowerProfile

/-! ## Stretch by stretch -/

/-- The number of stretches from `t` along `later` whose energy is not a whole number of Wh. -/
def PowerTimeline.roughAlong (line : PowerTimeline) : Int → List Int → Nat
  | _, [] => 0
  | t, next :: later =>
    (if powerAt line t * (next - t) % 3600 = 0 then 0 else 1) + roughAlong line next later

/-- The number of stretches between `now` and `time` whose energy is not a whole number of Wh. -/
def DeviceState.roughStretches (s : DeviceState) (now time : Int) : Nat :=
  PowerTimeline.roughAlong s.scheduledPower now
    (s.scheduledPower.keys.filter (fun k => now < k && k < time) ++ [time])

/-- Counted in whole Wh, stretch by stretch, the energy keeps the limits from `t` along
    `later`. -/
def PowerTimeline.KeepsAlong (line : PowerTimeline) (low high : Int) :
    Int → List Int → Int → Prop
  | _, [], stored => low ≤ stored ∧ stored ≤ high
  | t, next :: later, stored => (low ≤ stored ∧ stored ≤ high) ∧
      KeepsAlong line low high next later (stored + Quantity.wattHours ((next - t) * powerAt line t))

/-- What a conversion drops is less than one Wh, and nothing if the energy is a whole number. -/
theorem wattHours_remainder (ws : Int) :
    -(if ws % 3600 = 0 then 0 else 3599) ≤ ws - 3600 * Quantity.wattHours ws ∧
      ws - 3600 * Quantity.wattHours ws ≤ (if ws % 3600 = 0 then 0 else 3599) := by
  rw [wattHours_eq]
  split_ifs <;> omega

section Along

variable {line : PowerTimeline} {low high t stored : Int} {later rest : List Int}

theorem PowerTimeline.KeepsAlong.start (h : line.KeepsAlong low high t later stored) :
    low ≤ stored ∧ stored ≤ high := by
  cases later with
  | nil => exact h
  | cons next later => exact h.1

/-- The energy keeps the limits on the way as well. -/
theorem PowerTimeline.KeepsAlong.of_append
    (h : line.KeepsAlong low high t (later ++ rest) stored) :
    line.KeepsAlong low high t later stored := by
  induction later generalizing t stored with
  | nil => exact h.start
  | cons next later ih => exact ⟨h.1, ih h.2⟩

/-- The energy in Ws differs from the one counted by what each stretch drops. -/
theorem PowerTimeline.KeepsAlong.energyAlong_near
    (h : line.KeepsAlong low high t later stored) :
    ∃ counted, low ≤ counted ∧ counted ≤ high ∧
      3600 * (counted - stored) - 3599 * (line.roughAlong t later : Int)
        ≤ energyAlong line t later ∧
      energyAlong line t later
        ≤ 3600 * (counted - stored) + 3599 * (line.roughAlong t later : Int) := by
  induction later generalizing t stored with
  | nil => exact ⟨stored, h.1, h.2, by simp [energyAlong, roughAlong]⟩
  | cons next later ih =>
      obtain ⟨counted, hlow, hhigh, hdown, hup⟩ := ih h.2
      have hdropped := wattHours_remainder (powerAt line t * (next - t))
      rw [Int.mul_comm (next - t)] at hdown hup
      refine ⟨counted, hlow, hhigh, ?_⟩
      rw [energyAlong, roughAlong]
      push_cast
      split_ifs at hdropped ⊢ with hwhole
      · omega
      · omega

/-- Converted once, the energy is outside the limits by less than one Wh for each stretch
    that is not a whole number of Wh. -/
theorem PowerTimeline.KeepsAlong.expected (h : line.KeepsAlong low high t later stored) :
    low - (line.roughAlong t later : Int) * 3599 / 3600
        ≤ stored + Quantity.wattHours (energyAlong line t later) ∧
      stored + Quantity.wattHours (energyAlong line t later)
        ≤ high + (line.roughAlong t later : Int) * 3599 / 3600 := by
  obtain ⟨counted, hlow, hhigh, hdown, hup⟩ := h.energyAlong_near
  obtain ⟨hstart, hstart'⟩ := h.start
  rw [wattHours_eq]
  split_ifs <;> omega

end Along

/-! ## The repaired timeline -/

/-- Ascending numbers after `start`, cut at one of them. -/
theorem filter_lt_cut {l : List Int} (hasc : l.Pairwise (· < ·)) {start t : Int} (ht : t ∈ l)
    (hlt : start < t) :
    l.filter (fun k => start < k)
      = (l.filter (fun k => start < k && k < t) ++ [t]) ++ l.filter (fun k => t < k) := by
  -- Both sides are ascending and have the same members.
  refine (hasc.filter _).eq_of_mem_iff ?_ fun k => ?_
  · rw [List.pairwise_append, List.pairwise_append]
    simp only [List.mem_append, List.mem_filter, List.mem_singleton, Bool.and_eq_true,
      decide_eq_true_eq]
    refine ⟨⟨hasc.filter _, List.pairwise_singleton _ _, ?_⟩, hasc.filter _, ?_⟩
    · rintro j ⟨-, -, hj⟩ k rfl
      exact hj
    · rintro j (⟨-, -, hj⟩ | rfl) k ⟨-, hk⟩
      · exact Int.lt_trans hj hk
      · exact hk
  · simp only [List.mem_append, List.mem_filter, List.mem_singleton, Bool.and_eq_true,
      decide_eq_true_eq]
    constructor
    · rintro ⟨hk, hstart⟩
      rcases Int.lt_trichotomy k t with h | h | h
      · exact .inl (.inl ⟨hk, hstart, h⟩)
      · exact .inl (.inr h)
      · exact .inr ⟨hk, h⟩
    · rintro ((⟨hk, hstart, -⟩ | rfl) | ⟨hk, h⟩)
      · exact ⟨hk, hstart⟩
      · exact ⟨ht, hlt⟩
      · exact ⟨hk, Int.lt_trans hlt h⟩

namespace DeviceState

section Repair

variable {low high time : Int} {later : List Int} {r : Repair}

/-- A repair goes forward: what it has passed stays, and it sets nothing but breakpoints. -/
theorem get?_repairAlong (hasc : (time :: later).Pairwise (· < ·)) {j : Int}
    (hj : j < time ∨ j ∉ time :: later) :
    (repairAlong low high time later r).timeline.get? j = r.timeline.get? j := by
  induction later generalizing time r with
  | nil => rfl
  | cons next later ih =>
      obtain ⟨htime, hrest⟩ := List.pairwise_cons.1 hasc
      have hlt := htime next List.mem_cons_self
      have hj' : j < next ∨ j ∉ next :: later :=
        hj.imp (fun h => by omega) fun h hmem => h (List.mem_cons_of_mem _ hmem)
      have hne : j ≠ time := by
        rintro rfl
        exact hj.elim (Int.lt_irrefl _) fun h => h List.mem_cons_self
      rw [repairAlong]
      split
      · rw [ih hrest hj']
        exact OrderedMap.get?_insert_of_ne hne
      · rw [ih hrest hj']

/-- Breakpoints stay breakpoints. -/
theorem mem_keys_repairAlong {j : Int} (hj : j ∈ r.timeline.keys) :
    j ∈ (repairAlong low high time later r).timeline.keys := by
  induction later generalizing time r with
  | nil => exact hj
  | cons next later ih =>
      rw [repairAlong]
      split
      · apply ih
        obtain ⟨v, hv⟩ := OrderedMap.mem_keys_iff_get?.1 hj
        rw [OrderedMap.mem_keys_iff_get?, OrderedMap.get?_insert]
        split
        · exact ⟨0, rfl⟩
        · exact ⟨v, hv⟩
      · exact ih hj

/-- Before the next breakpoint the repaired timeline shows what the repair has made of it. -/
theorem powerAt_repairAlong (hasc : (time :: later).Pairwise (· < ·)) {t : Int} (ht : t < time) :
    PowerProfile.powerAt (repairAlong low high time later r).timeline t
      = PowerProfile.powerAt r.timeline t :=
  powerAt_congr fun _ hj => get?_repairAlong hasc (.inl (by omega))

/-- The first repaired instant is not repaired again, nor is another one answered for it. -/
theorem first_repairAlong_of_ne_zero (hr : r.first ≠ 0) :
    (repairAlong low high time later r).first = r.first := by
  induction later generalizing time r with
  | nil => rfl
  | cons next later ih =>
      rw [repairAlong]
      split
      · exact ih hr
      · exact ih hr

theorem leavesLimits_eq_false_iff {power stored : Int} :
    leavesLimits low high power stored = false ↔
      (0 < power → stored ≤ high) ∧ (power < 0 → low ≤ stored) := by
  simp only [leavesLimits, Bool.or_eq_false_iff, Bool.and_eq_false_imp, decide_eq_true_eq,
    decide_eq_false_iff_not]
  constructor
  · rintro ⟨hup, hdown⟩
    exact ⟨fun hpos => Int.not_lt.1 fun hlt => hup hlt hpos,
      fun hneg => Int.not_lt.1 fun hlt => hdown hlt hneg⟩
  · rintro ⟨hup, hdown⟩
    exact ⟨fun hlt hpos => Int.not_lt.2 (hup hpos) hlt,
      fun hlt hneg => Int.not_lt.2 (hdown hneg) hlt⟩

/-- A stretch that is not repaired leads from one energy within the limits to another. -/
theorem keeps_of_not_leavesLimits {power seconds stored : Int} (hseconds : 0 ≤ seconds)
    (hlow : low ≤ stored) (hhigh : stored ≤ high)
    (hleaves : ¬ leavesLimits low high power
      (stored + Quantity.wattHours (seconds * power)) = true) :
    low ≤ stored + Quantity.wattHours (seconds * power) ∧
      stored + Quantity.wattHours (seconds * power) ≤ high := by
  obtain ⟨hup, hdown⟩ := leavesLimits_eq_false_iff.1 (Bool.eq_false_iff.2 hleaves)
  -- Charging does not come below where it began, and discharging not above.
  rcases Int.lt_trichotomy power 0 with hneg | rfl | hpos
  · refine ⟨hdown hneg, ?_⟩
    have hws := Int.mul_nonpos_of_nonneg_of_nonpos hseconds hneg.le
    rw [wattHours_eq]
    split_ifs <;> omega
  · rw [Int.mul_zero, show Quantity.wattHours 0 = 0 from rfl, Int.add_zero]
    exact ⟨hlow, hhigh⟩
  · refine ⟨?_, hup hpos⟩
    have hws := Int.mul_nonneg hseconds hpos.le
    rw [wattHours_eq, if_pos hws]
    omega

/-- Whatever the repair meets, its own count keeps the limits along the timeline it leaves. -/
theorem keepsAlong_repairAlong (hasc : (time :: later).Pairwise (· < ·))
    (hlow : low ≤ r.stored) (hhigh : r.stored ≤ high) :
    PowerTimeline.KeepsAlong (repairAlong low high time later r).timeline low high time later
      r.stored := by
  induction later generalizing time r with
  | nil => exact ⟨hlow, hhigh⟩
  | cons next later ih =>
      obtain ⟨htime, hrest⟩ := List.pairwise_cons.1 hasc
      have hlt := htime next List.mem_cons_self
      rw [repairAlong]
      split
      · -- A repaired stretch delivers nothing, and what is stored stays.
        refine ⟨⟨hlow, hhigh⟩, ?_⟩
        rw [powerAt_repairAlong hrest hlt, powerAt_of_get? (OrderedMap.get?_insert_self _ _ _),
          Int.mul_zero]
        show PowerTimeline.KeepsAlong _ low high next later (r.stored + 0)
        rw [Int.add_zero]
        exact ih hrest hlow hhigh
      · rename_i hleaves
        obtain ⟨hlow', hhigh'⟩ := keeps_of_not_leavesLimits (by omega) hlow hhigh hleaves
        refine ⟨⟨hlow, hhigh⟩, ?_⟩
        rw [powerAt_repairAlong hrest hlt]
        exact ih hrest hlow' hhigh'

end Repair

section Repaired

variable {s : DeviceState} {now stored low high t : Int}

theorem scheduledPower_repair : (s.repair now stored low high).2.scheduledPower
    = (repairAlong low high now (s.scheduledPower.keys.filter fun k => now < k)
        ⟨s.scheduledPower, s.tasks, stored, 0⟩).timeline := rfl

theorem pairwise_breakpointsAfter (line : PowerTimeline) (now : Int) :
    (now :: line.keys.filter fun k => now < k).Pairwise (· < ·) :=
  List.pairwise_cons.2 ⟨fun k hk => by simpa using (List.mem_filter.1 hk).2,
    (OrderedMap.pairwise_keys line).filter _⟩

/-- A repair leaves the breakpoints after `now` as they are. -/
theorem breakpointsAfter_repair :
    (s.repair now stored low high).2.scheduledPower.keys.filter (fun k => now < k)
      = s.scheduledPower.keys.filter (fun k => now < k) := by
  have hasc := pairwise_breakpointsAfter s.scheduledPower now
  rw [scheduledPower_repair]
  refine ((OrderedMap.pairwise_keys _).filter _).eq_of_mem_iff
    ((OrderedMap.pairwise_keys _).filter _) fun k => ?_
  rw [List.mem_filter, List.mem_filter, decide_eq_true_eq]
  refine and_congr_left fun hk => ⟨fun hmem => ?_, fun hmem => mem_keys_repairAlong hmem⟩
  -- Nothing is set at an instant that is no breakpoint.
  by_contra hnot
  have hout : k ∉ now :: s.scheduledPower.keys.filter fun k => now < k := by
    rw [List.mem_cons, List.mem_filter]
    rintro (rfl | ⟨hmem', -⟩)
    · exact Int.lt_irrefl _ hk
    · exact hnot hmem'
  rw [OrderedMap.mem_keys_iff_get?, get?_repairAlong hasc (.inr hout)] at hmem
  exact hnot (OrderedMap.mem_keys_iff_get?.2 hmem)

/-- After a repair the energy expected at any later breakpoint keeps the limits, except for
    less than one Wh for each stretch before it that is not a whole number of Wh. With one such
    stretch at most the limits are kept. -/
theorem repaired_energy_near_limits (hlow : low ≤ stored) (hhigh : stored ≤ high) (ht : now < t)
    (hkey : t ∈ (s.repair now stored low high).2.scheduledPower.keys) :
    let s' := (s.repair now stored low high).2
    low - (s'.roughStretches now t : Int) * 3599 / 3600 ≤ s'.expectedEnergy now t stored ∧
      s'.expectedEnergy now t stored ≤ high + (s'.roughStretches now t : Int) * 3599 / 3600 := by
  intro s'
  have hkeeps : PowerTimeline.KeepsAlong s'.scheduledPower low high now
      (s'.scheduledPower.keys.filter fun k => now < k) stored := by
    rw [show s'.scheduledPower.keys.filter (fun k => now < k) = _ from breakpointsAfter_repair]
    exact keepsAlong_repairAlong (pairwise_breakpointsAfter s.scheduledPower now) hlow hhigh
  -- What is expected at a breakpoint is counted along the stretches before it.
  rw [filter_lt_cut s'.scheduledPower.pairwise_keys hkey ht] at hkeeps
  have hexpected : s'.expectedEnergy now t stored
      = stored + Quantity.wattHours (energyAlong s'.scheduledPower now
          (s'.scheduledPower.keys.filter (fun k => now < k && k < t) ++ [t])) := by
    rw [expectedEnergy, energyBetween, if_pos ht]
  rw [hexpected]
  exact hkeeps.of_append.expected

end Repaired

/-- A day that is offered as it begins. -/
def dayOffered : DeviceState := DeviceOperation.perform .fresh
  (.getSchedule ⟨1⟩ 86400 86410 86400 3000 Zone.utc smallBattery)

/-- Charging 2000 W for two seconds is less than one Wh per second, and more than one Wh
    together: a full battery is not kept from it, though it is expected to be charged above
    its limit. -/
theorem repaired_energy_above_limit :
    ∃ s : DeviceState, ∃ now stored low high t : Int,
      0 < now ∧ low ≤ stored ∧ stored ≤ high ∧ now < t ∧
      t ∈ (s.repair now stored low high).2.scheduledPower.keys ∧
      high < (s.repair now stored low high).2.expectedEnergy now t stored :=
  ⟨DeviceOperation.perform dayOffered (.adapt 0 (.ofList [(0, 2000), (1, 2000), (2, 0)])),
    86400, 5400, 600, 5400, 86402, by decide, by decide, by decide, by decide, by decide +kernel,
    by decide +kernel⟩

/-- Charging 1000 W for two hours from 1400 Wh below the limit: the second hour is set to
    rest, and the limits are kept at its end. -/
theorem repaired_energy_near_limits_twoHours :
    let s := DeviceOperation.perform dayOffered
      (.adapt 0 (.ofList [(0, 1000), (3600, 1000), (7200, 0)]))
    (s.repair 86400 4000 600 5400).1 = 90000 ∧
      600 ≤ (s.repair 86400 4000 600 5400).2.expectedEnergy 86400 93600 4000 ∧
      (s.repair 86400 4000 600 5400).2.expectedEnergy 86400 93600 4000 ≤ 5400 := by
  intro s
  have hrough : (s.repair 86400 4000 600 5400).2.roughStretches 86400 93600 = 0 := by
    decide +kernel
  have hnear := repaired_energy_near_limits (s := s) (show (600 : Int) ≤ 4000 by decide)
    (show (4000 : Int) ≤ 5400 by decide) (show (86400 : Int) < 93600 by decide) (by decide +kernel)
  dsimp only at hnear
  rw [hrough] at hnear
  exact ⟨by decide +kernel, hnear⟩

end DeviceState
end SiteDispatch
