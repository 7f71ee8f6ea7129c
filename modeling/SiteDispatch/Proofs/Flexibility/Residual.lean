/-
  SiteDispatch.Proofs.Flexibility.Residual

  What a committed task leaves of its envelope is the slack around the task.

  `slackAlong` hops over the keys of the profile and of both corridors and carries
  the energy delivered so far. Here the energy it carries is shown to be the sum of
  the power over all seconds up to the current key, so that both corridors are given
  key by key, without the loop; between two keys neither the profile nor the power
  corridor changes. A profile that the envelope accepts lies inside, and so its own
  deviation 0 lies in the slack.
-/

import SiteDispatch.Proofs.Flexibility.Validity

namespace SiteDispatch

/-! ## What is left of a bound -/

namespace Interval

/-- Ends at the edge of the narrow range bound nothing. -/
def IsOpenEnd (bound : Int) : Prop := bound = Quantity.least ∨ bound = Quantity.greatest

/-- `left` is what remains of the bound `i` once `used` has been spent: open ends stay
    where they are, finite ones are lowered by `used` and saturate. -/
structure Leaves (i : Interval) (used : Int) (left : Interval) : Prop where
  openLow : IsOpenEnd i.low → left.low = i.low
  low : ¬ IsOpenEnd i.low → left.low = Quantity.saturate (i.low - used)
  openHigh : IsOpenEnd i.high → left.high = i.high
  high : ¬ IsOpenEnd i.high → left.high = Quantity.saturate (i.high - used)

/-- The range is not closed from the wrong side: no value lies above the largest lower
    end or below the smallest upper one. -/
def Proper (i : Interval) : Prop := i.low ≠ Quantity.greatest ∧ i.high ≠ Quantity.least

theorem shiftEnd_of_isOpenEnd {delta bound : Int} (h : IsOpenEnd bound) :
    shiftEnd delta bound = bound := if_pos h

theorem shiftEnd_of_not_isOpenEnd {delta bound : Int} (h : ¬ IsOpenEnd bound) :
    shiftEnd delta bound = Quantity.saturate (bound + delta) := if_neg h

/-- Moving a bound down by what has been spent leaves what remains of it. -/
theorem leaves_shifted (i : Interval) (used : Int) : i.Leaves used (i.shifted (-used)) where
  openLow := shiftEnd_of_isOpenEnd
  low := shiftEnd_of_not_isOpenEnd
  openHigh := shiftEnd_of_isOpenEnd
  high := shiftEnd_of_not_isOpenEnd

/-- What was spent inside the bound leaves room for not spending more. -/
theorem Leaves.contains_zero {i left : Interval} {used : Int} (h : i.Leaves used left)
    (hproper : i.Proper) (hused : i.contains used) : left.contains 0 := by
  obtain ⟨hlow, hhigh⟩ := contains_iff.1 hused
  rw [contains_iff]
  constructor
  · by_cases hopen : IsOpenEnd i.low
    · -- The only open lower end of a proper range is the least value.
      rw [h.openLow hopen, hopen.resolve_right hproper.1, Quantity.least]
      omega
    · rw [h.low hopen]
      simp only [Quantity.saturate, Quantity.least, Quantity.greatest]
      omega
  · by_cases hopen : IsOpenEnd i.high
    · rw [h.openHigh hopen, hopen.resolve_left hproper.2, Quantity.greatest]
      omega
    · rw [h.high hopen]
      simp only [Quantity.saturate, Quantity.least, Quantity.greatest]
      omega

end Interval

namespace Flexibility

open PowerProfile

variable {f : Flexibility} {p : PowerProfile} {task : Task}

/-! ## The slack, key by key -/

/-- What is left of the power corridor at `t`. -/
def powerSlack (f : Flexibility) (p : PowerProfile) (t : Int) : Interval :=
  ((f.powerCorridor.floorValue? t).getD Interval.zero).shifted (-powerAt p t)

/-- What is left of the energy corridor at `k`. -/
def energySlack (f : Flexibility) (p : PowerProfile) (k : Int) : Interval :=
  ((f.energyConstraint? k).getD Interval.unbounded).shifted (-integral p k)

/-- Offset 0 and the later ones at which the profile or one of the corridors has a key. -/
def slackKeys (f : Flexibility) (p : PowerProfile) : List Int :=
  0 :: breakpoints (p.keys ++ f.powerCorridor.keys ++ f.energyCorridor.keys)

theorem mem_slackKeys {k : Int} :
    k ∈ f.slackKeys p ↔ k = 0 ∨
      (0 < k ∧ (k ∈ p.keys ∨ k ∈ f.powerCorridor.keys ∨ k ∈ f.energyCorridor.keys)) := by
  rw [slackKeys, List.mem_cons, mem_breakpoints, List.mem_append, List.mem_append, or_assoc,
    and_comm]

theorem pairwise_slackKeys (f : Flexibility) (p : PowerProfile) :
    (f.slackKeys p).Pairwise (· < ·) := pairwise_zero_breakpoints _

/-- The loop started at `t` with what has been delivered by then carries on with what has been
    delivered by the next breakpoint, if no key of the profile is missing among them. -/
theorem slackAlong_eq_map (f : Flexibility) (p : PowerProfile) :
    ∀ (later : List Int) (t : Int), 0 ≤ t → (t :: later).Pairwise (· < ·) →
      (∀ j ∈ p.keys, t < j → j ∈ later) →
      slackAlong f p (integral p t) t later
        = (t :: later).map fun k => (k, f.powerSlack p k, f.energySlack p k) := by
  intro later
  induction later with
  | nil =>
      intro t _ _ _
      rfl
  | cons next later ih =>
      intro t h0 hasc hkeys
      obtain ⟨ht, hrest⟩ := List.pairwise_cons.1 hasc
      have htn : t < next := ht next (by simp)
      have hafter : ∀ k ∈ later, next < k := (List.pairwise_cons.1 hrest).1
      -- The power stays that of `t` before the next breakpoint, so one product is the whole sum.
      have hnone : ∀ j, t < j → j < next → p.get? j = none := by
        intro j htj hjn
        rw [OrderedMap.get?_eq_none_iff]
        intro hmem
        have := next_le_of_isKey hafter hkeys hmem htj
        omega
      have htotal : integral p t + powerAt p t * (next - t) = integral p next := by
        rw [integral_eq_sum, integral_eq_sum, ← sum_Ico_of_no_key htn.le hnone,
          sum_Ico_add_sum_Ico _ h0 htn.le]
      have hgo := ih next (by omega) hrest fun j hj hnj => mem_later_of_isKey htn hkeys hj hnj
      rw [slackAlong, htotal, hgo]
      rfl

/-- The slack of a task, without the loop. -/
theorem slackAlong_slackKeys (f : Flexibility) (p : PowerProfile) :
    slackAlong f p 0 0 (breakpoints (p.keys ++ f.powerCorridor.keys ++ f.energyCorridor.keys))
      = (f.slackKeys p).map fun k => (k, f.powerSlack p k, f.energySlack p k) := by
  -- Nothing has been delivered by offset 0.
  have hzero : integral p 0 = 0 := rfl
  have hloop := slackAlong_eq_map f p
    (breakpoints (p.keys ++ f.powerCorridor.keys ++ f.energyCorridor.keys)) 0 (Int.le_refl 0)
    (pairwise_zero_breakpoints _)
    fun j hj h0 => mem_breakpoints.2 ⟨List.mem_append_left _ (List.mem_append_left _ hj), h0⟩
  rwa [hzero] at hloop

theorem powerCorridor_residual (f : Flexibility) (task : Task) :
    (f.residual task).powerCorridor
      = OrderedMap.ofList
          ((f.slackKeys task.power).map fun k => (k, f.powerSlack task.power k)) := by
  rw [residual, slackAlong_slackKeys]
  simp only [List.map_map]
  rfl

theorem energyCorridor_residual (f : Flexibility) (task : Task) :
    (f.residual task).energyCorridor
      = OrderedMap.ofList
          ((f.slackKeys task.power).map fun k => (k, f.energySlack task.power k)) := by
  rw [residual, slackAlong_slackKeys]
  simp only [List.map_map]
  rfl

theorem keys_powerCorridor_residual :
    (f.residual task).powerCorridor.keys = f.slackKeys task.power := by
  rw [powerCorridor_residual, OrderedMap.keys_ofList_map (pairwise_slackKeys f task.power)]

theorem keys_energyCorridor_residual :
    (f.residual task).energyCorridor.keys = f.slackKeys task.power := by
  rw [energyCorridor_residual, OrderedMap.keys_ofList_map (pairwise_slackKeys f task.power)]

/-- Between two keys the slack of power stays as it is. -/
theorem powerSlack_eq_of_no_key {s t : Int} (hst : s ≤ t)
    (h : ∀ j, s < j → j ≤ t → j ∉ p.keys ∧ j ∉ f.powerCorridor.keys) :
    f.powerSlack p t = f.powerSlack p s := by
  have hpower : powerAt p t = powerAt p s :=
    powerAt_eq_of_no_key hst fun j hsj hjt => OrderedMap.get?_eq_none_iff.2 (h j hsj hjt).1
  have hcorridor : f.powerCorridor.floorValue? t = f.powerCorridor.floorValue? s :=
    OrderedMap.floorValue?_eq_of_no_key hst fun j hsj hjt =>
      OrderedMap.get?_eq_none_iff.2 (h j hsj hjt).2
  rw [powerSlack, powerSlack, hpower, hcorridor]

/-- So at every offset the slack in force is that of the offset itself. -/
theorem floorValue?_powerCorridor_residual {t : Int} (h0 : 0 ≤ t) :
    (f.residual task).powerCorridor.floorValue? t = some (f.powerSlack task.power t) := by
  have hzero : 0 ∈ (f.residual task).powerCorridor.keys := by
    rw [keys_powerCorridor_residual, mem_slackKeys]
    exact .inl rfl
  obtain ⟨left, hleft⟩ := OrderedMap.exists_floorValue?_of_key hzero h0
  obtain ⟨k, hget, hkt, hnone⟩ := OrderedMap.floorValue?_eq_some_iff.1 hleft
  rw [powerCorridor_residual, OrderedMap.get?_ofList_map (pairwise_slackKeys f task.power)] at hget
  obtain ⟨hk, rfl⟩ := hget
  have hk0 : 0 ≤ k := by
    rcases mem_slackKeys.1 hk with rfl | ⟨hpos, -⟩
    · exact Int.le_refl 0
    · exact hpos.le
  -- A key of the profile or of the power corridor after `k` would be one of the slack, too.
  rw [hleft, powerSlack_eq_of_no_key hkt]
  intro j hkj hjt
  have hgone := hnone j hkj hjt
  rw [OrderedMap.get?_eq_none_iff, keys_powerCorridor_residual, mem_slackKeys] at hgone
  constructor
  · exact fun hmem => hgone (.inr ⟨by omega, .inl hmem⟩)
  · exact fun hmem => hgone (.inr ⟨by omega, .inr (.inl hmem)⟩)

theorem get?_energyCorridor_residual {k : Int} {left : Interval} :
    (f.residual task).energyCorridor.get? k = some left ↔
      k ∈ f.slackKeys task.power ∧ left = f.energySlack task.power k := by
  rw [energyCorridor_residual, OrderedMap.get?_ofList_map (pairwise_slackKeys f task.power)]

/-! ## The slack around an accepted profile -/

/-- No range of the envelope is closed from the wrong side, interpolated ones included. -/
structure Proper (f : Flexibility) : Prop where
  power : ∀ t bound, f.powerCorridor.get? t = some bound → bound.Proper
  energy : ∀ t bound, f.energyConstraint? t = some bound → bound.Proper

theorem PowerFits.contains_zero {t : Int} (h : f.PowerFits p t) (hproper : f.Proper) :
    (f.powerSlack p t).contains 0 := by
  obtain ⟨bound, hbound, hin⟩ := h
  obtain ⟨k, -, hget⟩ := OrderedMap.exists_key_of_floorValue? hbound
  rw [powerSlack, hbound, Option.getD_some]
  exact (bound.leaves_shifted _).contains_zero (hproper.power k bound hget) hin

theorem EnergyFits.contains_zero {k : Int} (h : f.EnergyFits p k) (hproper : f.Proper) :
    (f.energySlack p k).contains 0 := by
  obtain ⟨bound, hbound, hin⟩ := h
  rw [energySlack, hbound, Option.getD_some, integral_eq_sum]
  exact (bound.leaves_shifted _).contains_zero (hproper.energy k bound hbound) hin

/-- What a task leaves of its envelope is the slack around it: at every offset what the power in
    force leaves of the power corridor in force, at every key what the energy delivered so far
    leaves of the energy corridor there. The keys are 0 and all later keys of the profile and of
    both corridors. If the envelope accepts the profile, then not deviating from it is possible:
    0 lies in the slack of power before the last key of profile and power corridor, and in the
    slack of energy at every later key of profile and energy corridor. -/
theorem residual_is_slack (f : Flexibility) (task : Task) :
    (∀ t, 0 ≤ t → ∃ left, (f.residual task).powerCorridor.floorValue? t = some left ∧
      ((f.powerCorridor.floorValue? t).getD Interval.zero).Leaves (task.powerAt t) left) ∧
    (∀ k ∈ (f.residual task).energyCorridor.keys, ∃ left,
      (f.residual task).energyCorridor.get? k = some left ∧
      ((f.energyConstraint? k).getD Interval.unbounded).Leaves
        (∑ s ∈ Finset.Ico 0 k, task.powerAt s) left) ∧
    (∀ k, k ∈ (f.residual task).powerCorridor.keys ↔ k = 0 ∨ (0 < k ∧
      (k ∈ task.power.keys ∨ k ∈ f.powerCorridor.keys ∨ k ∈ f.energyCorridor.keys))) ∧
    (f.residual task).energyCorridor.keys = (f.residual task).powerCorridor.keys ∧
    (f.validate task.startingTime task.power = .ok () → f.Proper →
      (∀ t, 0 ≤ t → t < max (task.power.lastKey?.getD 0) (f.powerCorridor.lastKey?.getD 0) →
        ∃ left, (f.residual task).powerCorridor.floorValue? t = some left ∧ left.contains 0) ∧
      ∀ k, 0 < k → k ∈ task.power.keys ∨ k ∈ f.energyCorridor.keys →
        ∃ left, (f.residual task).energyCorridor.get? k = some left ∧ left.contains 0) := by
  refine ⟨fun t h0 => ?_, fun k hk => ?_, fun k => ?_, ?_, fun hvalid hproper => ⟨?_, ?_⟩⟩
  · exact ⟨_, floorValue?_powerCorridor_residual h0, Interval.leaves_shifted _ _⟩
  · rw [keys_energyCorridor_residual] at hk
    refine ⟨_, get?_energyCorridor_residual.2 ⟨hk, rfl⟩, ?_⟩
    rw [energySlack, integral_eq_sum]
    exact Interval.leaves_shifted _ _
  · rw [keys_powerCorridor_residual, mem_slackKeys]
  · rw [keys_energyCorridor_residual, keys_powerCorridor_residual]
  · -- An accepted profile lies in the power corridor at each of these seconds,
    intro t h0 hlt
    have hfits := (validate_eq_ok_iff_fits.1 hvalid).power t h0 hlt
    exact ⟨_, floorValue?_powerCorridor_residual h0, hfits.contains_zero hproper⟩
  · -- and what it has delivered lies in the energy corridor at each of these keys.
    intro k h0 hkey
    have hfits := (validate_eq_ok_iff_fits.1 hvalid).energy k h0 hkey
    have hmem : k ∈ f.slackKeys task.power :=
      mem_slackKeys.2 (.inr ⟨h0, hkey.imp_right .inr⟩)
    exact ⟨_, get?_energyCorridor_residual.2 ⟨hmem, rfl⟩, hfits.contains_zero hproper⟩

/-- An envelope that takes back no more than 200 W after ten minutes and then takes any power. -/
def narrowing : Flexibility where
  id := 1
  taskId := 7
  adaptable := true
  stoppingTime := ⟨1000, 1000⟩
  runningTime := ⟨0, 3600⟩
  powerCorridor := .ofList [(0, ⟨-1000, 1000⟩), (600, ⟨-200, Quantity.greatest⟩)]
  energyCorridor := .singleton 0 ⟨-2000000, 2000000⟩

/-- A task that uses the lower limit of it. -/
def swinging : Task where
  id := 7
  flexibilityId := 1
  adaptable := true
  startingTime := 0
  runningTime := 1000
  power := .ofList [(0, 400), (500, -200), (1000, 0)]

theorem proper_narrowing : narrowing.Proper where
  power t bound h := by
    have hmem := OrderedMap.mem_of_get?_ofList h
    simp only [List.mem_cons, Prod.mk.injEq, List.not_mem_nil, or_false] at hmem
    rcases hmem with ⟨-, rfl⟩ | ⟨-, rfl⟩
    · exact ⟨by decide, by decide⟩
    · exact ⟨by decide, by decide⟩
  energy t bound h := by
    -- There is one bound only, from offset 0 on.
    have hlast : narrowing.energyCorridor.lastEntry? = some (0, ⟨-2000000, 2000000⟩) := rfl
    by_cases ht : 0 ≤ t
    · have hbound := energyConstraint?_of_lastEntry? hlast ht
      obtain rfl := Option.some.inj (hbound.symm.trans h)
      exact ⟨by decide, by decide⟩
    · have hnone : narrowing.energyCorridor.floorEntry? t = none := by
        rw [OrderedMap.floorEntry?_eq_none_iff]
        intro j hj
        rw [narrowing, OrderedMap.get?_singleton, if_neg (by omega)]
      rw [energyConstraint?, hnone] at h
      cases h

/-- While the task discharges at the limit, nothing more may be taken back; charging is open. -/
theorem residual_is_slack_swinging :
    narrowing.validate 0 swinging.power = .ok () ∧ narrowing.Proper ∧
    (narrowing.residual swinging).powerCorridor.floorValue? 700
      = some ⟨0, Quantity.greatest⟩ ∧
    (narrowing.residual swinging).energyCorridor.get? 1000 = some ⟨-2100000, 1900000⟩ ∧
    (∀ t, 0 ≤ t → t < 1000 → ∃ left,
      (narrowing.residual swinging).powerCorridor.floorValue? t = some left ∧ left.contains 0) ∧
    ∃ left, (narrowing.residual swinging).energyCorridor.get? 1000 = some left ∧
      left.contains 0 := by
  have hvalid : narrowing.validate 0 swinging.power = .ok () := by decide +kernel
  obtain ⟨-, -, -, -, hzero⟩ := residual_is_slack narrowing swinging
  obtain ⟨hpower, henergy⟩ := hzero hvalid proper_narrowing
  refine ⟨hvalid, proper_narrowing, by decide +kernel, by decide +kernel, fun t h0 hlt => ?_, ?_⟩
  · exact hpower t h0 hlt
  · exact henergy 1000 (by decide) (.inl (by decide))

end Flexibility
end SiteDispatch
