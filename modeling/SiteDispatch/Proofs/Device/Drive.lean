/-
  SiteDispatch.Proofs.Device.Drive

  How a device is driven to a charge target.

  The drive is one power from now on, for as long as the energy takes, and rest from then until the
  time of the target. The energy is divided by the time without the remainder before the power is
  rounded up to the next step, so the rounding makes up for the remainder unless the quotient is on
  a step already. Before the drive nothing changes; behind it whatever has been set stays, and the
  device rests until then.
-/

import SiteDispatch.Proofs.Device.Frame
import SiteDispatch.Proofs.Device.Limits

namespace SiteDispatch

open PowerProfile

namespace DeviceState

/-! ## The power of a drive -/

section Power

variable {change duration step watts x : Int}

/-- Power in steps of 100 W that brings `change` Ws in `duration` seconds. -/
def drivePower (change duration : Int) : Int := roundAwayFromZero (change.tdiv duration) 100

/-- Seconds in which `watts` bring `change` Ws, rounded up. -/
def secondsFor (change watts : Int) : Int :=
  ((change.natAbs : Int) + watts.natAbs - 1).tdiv watts.natAbs

/-- Rounding keeps the sign and goes to the next multiple. -/
theorem roundAwayFromZero_spec (hstep : 0 < step) (x : Int) :
    step ∣ roundAwayFromZero x step ∧ (roundAwayFromZero x step).sign = x.sign ∧
      x.natAbs ≤ (roundAwayFromZero x step).natAbs ∧
      ((roundAwayFromZero x step).natAbs : Int) < x.natAbs + step := by
  -- What holds of a positive number that is rounded up.
  have hup : ∀ y : Int, 0 < y → y ≤ (y + step - 1).tdiv step * step ∧
      (y + step - 1).tdiv step * step < y + step := by
    intro y hy
    rw [Int.tdiv_eq_ediv_of_nonneg (by omega)]
    have hle := Int.ediv_mul_le (y + step - 1) (show step ≠ 0 by omega)
    have hlt := Int.lt_ediv_add_one_mul_self (y + step - 1) hstep
    rw [Int.add_mul, Int.one_mul] at hlt
    omega
  rw [roundAwayFromZero]
  rcases lt_trichotomy x 0 with hneg | rfl | hpos
  · obtain ⟨hle, hlt⟩ := hup (-x) (by omega)
    rw [if_neg (by omega), if_pos hneg]
    refine ⟨Int.dvd_neg.2 (Int.dvd_mul_left _ _), ?_, by omega, by omega⟩
    rw [Int.sign_eq_neg_one_of_neg hneg, Int.sign_eq_neg_one_of_neg (by omega)]
  · exact ⟨Int.dvd_zero _, rfl, Nat.le_refl _, by simpa using hstep⟩
  · obtain ⟨hle, hlt⟩ := hup x hpos
    rw [if_pos hpos]
    refine ⟨Int.dvd_mul_left _ _, ?_, by omega, by omega⟩
    rw [Int.sign_eq_one_of_pos hpos, Int.sign_eq_one_of_pos (by omega)]

/-- What is on a step stays where it is. -/
theorem roundAwayFromZero_of_dvd (hstep : 0 < step) (h : step ∣ x) :
    roundAwayFromZero x step = x := by
  obtain ⟨hdvd, hsign, hle, hlt⟩ := roundAwayFromZero_spec hstep x
  have hgap : step ∣ ((roundAwayFromZero x step).natAbs : Int) - x.natAbs :=
    Int.dvd_sub (Int.dvd_natAbs.2 hdvd) (Int.dvd_natAbs.2 h)
  have hnone := Int.eq_zero_of_dvd_of_nonneg_of_lt (by omega) (by omega) hgap
  rw [← Int.sign_mul_natAbs (roundAwayFromZero x step), hsign,
    show ((roundAwayFromZero x step).natAbs : Int) = x.natAbs by omega, Int.sign_mul_natAbs]

/-- What is between two steps gets larger. -/
theorem natAbs_lt_roundAwayFromZero (hstep : 0 < step) (h : ¬ step ∣ x) :
    x.natAbs < (roundAwayFromZero x step).natAbs := by
  obtain ⟨hdvd, -, hle, -⟩ := roundAwayFromZero_spec hstep x
  refine Nat.lt_of_le_of_ne hle fun heq => h ?_
  rw [← Int.dvd_natAbs, heq, Int.dvd_natAbs]
  exact hdvd

/-- The average power and what it leaves undelivered. -/
theorem natAbs_tdiv_mul_add_emod (hduration : 0 < duration) (change : Int) :
    ((change.tdiv duration).natAbs : Int) * duration + change.natAbs % duration
      = change.natAbs := by
  have hquotient : ((change.tdiv duration).natAbs : Int) = (change.natAbs : Int) / duration := by
    rw [Int.natAbs_tdiv]
    show ((change.natAbs / duration.natAbs : Nat) : Int) = _
    rw [Int.natCast_ediv, Int.natAbs_of_nonneg hduration.le]
  rw [hquotient, Int.mul_comm, Int.mul_ediv_add_emod]

/-- The power suffices if the energy is a multiple of the time, and if there was something to round
    up: one more watt delivers more than what the division has left out. -/
theorem natAbs_le_drivePower_mul_iff (hduration : 0 < duration) :
    (change.natAbs : Int) ≤ (drivePower change duration).natAbs * duration ↔
      duration ∣ change ∨ ¬ 100 ∣ change.tdiv duration := by
  have hsplit := natAbs_tdiv_mul_add_emod hduration change
  have hleft := Int.emod_nonneg (change.natAbs : Int) (show duration ≠ 0 by omega)
  have hlt := Int.emod_lt_of_pos (change.natAbs : Int) hduration
  rw [← Int.dvd_natAbs, Int.dvd_iff_emod_eq_zero, drivePower]
  by_cases hstep : 100 ∣ change.tdiv duration
  · -- The power is the quotient, so the remainder has to be nothing.
    rw [roundAwayFromZero_of_dvd (by decide) hstep]
    simp only [hstep, not_true_eq_false, or_false]
    omega
  · -- The power is at least a watt more, and all that is left over is less than that.
    have hmore := natAbs_lt_roundAwayFromZero (by decide) hstep
    simp only [hstep, not_false_eq_true, or_true, iff_true]
    have hgrow := Int.mul_le_mul_of_nonneg_right
      (show ((change.tdiv duration).natAbs : Int) + 1
        ≤ (roundAwayFromZero (change.tdiv duration) 100).natAbs by omega) hduration.le
    rw [Int.add_mul, Int.one_mul] at hgrow
    omega

theorem secondsFor_nonneg (change watts : Int) : 0 ≤ secondsFor change watts := by
  rw [secondsFor]
  by_cases hrest : watts = 0
  · rw [hrest, Int.natAbs_zero, Int.natCast_zero, Int.tdiv_zero]
  · exact Int.tdiv_nonneg (by omega) (by omega)

/-- The time is the shortest one in which the power brings the energy. -/
theorem secondsFor_le_iff (hwatts : watts ≠ 0) {seconds : Int} :
    secondsFor change watts ≤ seconds ↔ (change.natAbs : Int) ≤ watts.natAbs * seconds := by
  rw [secondsFor, Int.tdiv_eq_ediv_of_nonneg (by omega), ← Int.lt_add_one_iff,
    Int.ediv_lt_iff_lt_mul (by omega), Int.add_mul, Int.one_mul, Int.mul_comm seconds]
  omega

/-- In the time it takes less than a second's energy comes on top. -/
theorem mul_secondsFor_lt (hwatts : watts ≠ 0) (change : Int) :
    (watts.natAbs : Int) * secondsFor change watts < change.natAbs + watts.natAbs := by
  have hle := Int.mul_ediv_self_le (x := (change.natAbs : Int) + watts.natAbs - 1)
    (k := watts.natAbs) (by omega)
  rw [secondsFor, Int.tdiv_eq_ediv_of_nonneg (by omega)]
  omega

/-! ## The energy of a drive -/

/-- Ws that a drive brings in `duration` seconds if no limit cuts its power. -/
def driveEnergy (change duration : Int) : Int :=
  drivePower change duration * min (secondsFor change (drivePower change duration)) duration

/-- A drive has the direction of the energy, if there is power at all. -/
theorem sign_drivePower (hduration : 0 < duration) (hpower : drivePower change duration ≠ 0) :
    (drivePower change duration).sign = change.sign := by
  have hsign : (drivePower change duration).sign = (change.tdiv duration).sign :=
    (roundAwayFromZero_spec (by decide) _).2.1
  have hmoves : (drivePower change duration).sign ≠ 0 :=
    fun h => hpower (Int.sign_eq_zero_iff_zero.1 h)
  rw [hsign, Int.sign_tdiv] at hmoves ⊢
  split at hmoves
  · exact absurd rfl hmoves
  · rw [if_neg ‹_›, Int.sign_eq_one_of_pos hduration, Int.mul_one]

theorem drivePower_zero (duration : Int) : drivePower 0 duration = 0 := by
  rw [drivePower, Int.zero_tdiv]
  rfl

/-- A power that suffices brings the energy, and less than a second's worth on top. -/
theorem driveEnergy_of_enough (hduration : 0 < duration)
    (henough : (change.natAbs : Int) ≤ (drivePower change duration).natAbs * duration) :
    (driveEnergy change duration).sign = change.sign ∧
      change.natAbs ≤ (driveEnergy change duration).natAbs ∧
      (change ≠ 0 → (driveEnergy change duration).natAbs
        < change.natAbs + (drivePower change duration).natAbs) := by
  rw [driveEnergy]
  by_cases hnothing : change = 0
  · subst hnothing
    rw [drivePower_zero, Int.zero_mul]
    exact ⟨rfl, Nat.le_refl _, fun h => absurd rfl h⟩
  · have hpower : drivePower change duration ≠ 0 := by
      intro hzero
      rw [hzero, Int.natAbs_zero, Int.natCast_zero, Int.zero_mul] at henough
      omega
    have hbrings := (secondsFor_le_iff hpower).1 (Int.le_refl (secondsFor change _))
    have hless := mul_secondsFor_lt hpower change
    -- The drive ends on its own, before the time of the target, and takes a second at least.
    have hseconds : 0 < secondsFor change (drivePower change duration) := by
      by_contra hnone
      rw [Int.not_lt, secondsFor_le_iff hpower, Int.mul_zero] at hnone
      omega
    rw [Int.min_eq_left ((secondsFor_le_iff hpower).2 henough), Int.sign_mul,
      Int.sign_eq_one_of_pos hseconds, Int.mul_one, sign_drivePower hduration hpower]
    have hmagnitude : ((drivePower change duration
        * secondsFor change (drivePower change duration)).natAbs : Int)
          = (drivePower change duration).natAbs
            * secondsFor change (drivePower change duration) := by
      rw [Int.natAbs_mul, Int.natCast_mul, Int.natAbs_of_nonneg hseconds.le]
    exact ⟨rfl, by omega, fun _ => by omega⟩

/-- One that does not suffice is the average, and it is in force all the time: the remainder of the
    division stays undelivered. -/
theorem driveEnergy_of_short (hduration : 0 < duration)
    (hshort : ¬ (change.natAbs : Int) ≤ (drivePower change duration).natAbs * duration) :
    driveEnergy change duration = change - change.tmod duration := by
  have hstep : 100 ∣ change.tdiv duration := by
    rw [natAbs_le_drivePower_mul_iff hduration, not_or, not_not] at hshort
    exact hshort.2
  have haverage : drivePower change duration = change.tdiv duration :=
    roundAwayFromZero_of_dvd (by decide) hstep
  -- What has not been reached by then is cut off there.
  have hwhole : driveEnergy change duration = drivePower change duration * duration := by
    rw [driveEnergy]
    by_cases hpower : drivePower change duration = 0
    · rw [hpower, Int.zero_mul, Int.zero_mul]
    · rw [← secondsFor_le_iff hpower] at hshort
      rw [Int.min_eq_right (by omega)]
  have hdivision := Int.tdiv_mul_add_tmod change duration
  rw [hwhole, haverage]
  omega

/-- So the energy is reached exactly if the power suffices. -/
theorem natAbs_le_driveEnergy_iff (hduration : 0 < duration) :
    change.natAbs ≤ (driveEnergy change duration).natAbs ↔
      duration ∣ change ∨ ¬ 100 ∣ change.tdiv duration := by
  rw [← natAbs_le_drivePower_mul_iff hduration]
  refine ⟨fun hreached => ?_, fun henough => (driveEnergy_of_enough hduration henough).2.1⟩
  have hseconds := secondsFor_nonneg change (drivePower change duration)
  -- The drive is not longer than the time there is.
  have hmost : ((driveEnergy change duration).natAbs : Int)
      ≤ (drivePower change duration).natAbs * duration := by
    rw [driveEnergy, Int.natAbs_mul, Int.natCast_mul]
    exact Int.mul_le_mul_of_nonneg_left (by omega) (by omega)
  omega

end Power

end DeviceState

/-! ## The timeline of a drive -/

namespace PowerTimeline

open DeviceState

variable {line : PowerTimeline} {change watts now time t : Int}

/-- The timeline with a drive from `now` until `time`: `watts` for as long as `change` Ws take,
    then rest. -/
def driven (line : PowerTimeline) (change watts now time : Int) : PowerTimeline :=
  let constant := (clear line now time).insert now watts
  let rested :=
    if watts ≠ 0 ∧ now + secondsFor change watts < time then
      constant.insert (now + secondsFor change watts) 0
    else constant
  rested.insertNew time 0

theorem get?_driven (line : PowerTimeline) (change watts : Int) (hlt : now < time) (j : Int) :
    (driven line change watts now time).get? j
      = if j = time then (line.get? time).or (some 0)
        else if watts ≠ 0 ∧ now + secondsFor change watts < time ∧
            j = now + secondsFor change watts then some 0
        else if j = now then some watts
        else if now ≤ j ∧ j < time then none
        else line.get? j := by
  have hconstant : ∀ j, ((clear line now time).insert now watts).get? j
      = if j = now then some watts
        else if now ≤ j ∧ j < time then none else line.get? j := by
    intro j
    rw [OrderedMap.get?_insert, get?_clear]
  rw [driven, OrderedMap.get?_insertNew]
  by_cases hearly : watts ≠ 0 ∧ now + secondsFor change watts < time
  · rw [if_pos hearly, OrderedMap.get?_insert, hconstant]
    by_cases htime : j = time
    · rw [if_pos htime, if_pos htime, if_neg (by omega), if_neg (by omega), if_neg (by omega),
        htime]
    · simp only [htime, if_false, hearly, true_and, not_false_eq_true, ne_eq]
  · rw [if_neg hearly, hconstant]
    by_cases htime : j = time
    · rw [if_pos htime, if_pos htime, if_neg (by omega), if_neg (by omega), htime]
    · have hlate : ¬ (watts ≠ 0 ∧ now + secondsFor change watts < time ∧
          j = now + secondsFor change watts) := fun h => hearly ⟨h.1, h.2.1⟩
      rw [if_neg htime, if_neg htime, if_neg hlate]

/-- Before a drive the timeline stays as it is; behind it the device rests until something is
    set. -/
theorem powerAt_driven (line : PowerTimeline) (change watts : Int) (hlt : now < time) (t : Int) :
    PowerProfile.powerAt (driven line change watts now time) t
      = if t < now then PowerProfile.powerAt line t
        else if t < time then (if t < now + secondsFor change watts then watts else 0)
        else if line.SetBetween time t then PowerProfile.powerAt line t else 0 := by
  have hget := get?_driven line change watts hlt
  have hseconds := secondsFor_nonneg change watts
  by_cases hbefore : t < now
  · rw [if_pos hbefore]
    refine powerAt_congr fun j hj => ?_
    rw [hget, if_neg (by omega), if_neg (by omega), if_neg (by omega), if_neg (by omega)]
  rw [if_neg hbefore]
  by_cases hinside : t < time
  · rw [if_pos hinside]
    by_cases hover : watts ≠ 0 ∧ now + secondsFor change watts ≤ t
    · -- The rest has begun, and nothing is left after it.
      rw [if_neg (by omega), powerAt_eq_of_no_key hover.2 fun j hj hjt => ?_]
      · apply powerAt_of_get?
        rw [hget, if_neg (by omega), if_pos ⟨hover.1, by omega, rfl⟩]
      · rw [hget, if_neg (by omega), if_neg (by omega), if_neg (by omega), if_pos (by omega)]
    · -- The power is still in force; without power that is rest, too.
      have hshown : PowerProfile.powerAt (driven line change watts now time) t = watts := by
        rw [powerAt_eq_of_no_key (show now ≤ t by omega) fun j hj hjt => ?_]
        · apply powerAt_of_get?
          rw [hget, if_neg (by omega), if_neg (by omega), if_pos rfl]
        · rw [hget, if_neg (by omega), if_neg (by omega), if_neg (by omega), if_pos (by omega)]
      rw [hshown]
      split
      · rfl
      · omega
  · rw [if_neg hinside]
    refine Resumes.powerAt_eq (resumes_of_get? (fun hmem => ?_) (fun hmem => ?_)
      (fun j hj => ?_) (by omega))
    · obtain ⟨v, hv⟩ := OrderedMap.mem_keys_iff_get?.1 hmem
      rw [hget, if_pos rfl, hv, Option.some_or]
    · apply powerAt_of_get?
      rw [hget, if_pos rfl, OrderedMap.get?_eq_none_iff.2 hmem, Option.none_or]
    · rw [hget, if_neg (by omega), if_neg (by omega), if_neg (by omega), if_neg (by omega)]

/-- Nothing is lost behind a drive exactly if something is set where it ends or the device rests
    there anyway. -/
theorem powerAt_behind_iff (line : PowerTimeline) (time : Int) :
    (∀ t, time ≤ t →
      (if line.SetBetween time t then PowerProfile.powerAt line t else 0)
        = PowerProfile.powerAt line t) ↔
      time ∈ line.keys ∨ PowerProfile.powerAt line time = 0 := by
  constructor
  · intro hsame
    by_contra hlost
    rw [not_or] at hlost
    have hnone : ¬ line.SetBetween time time := by
      rintro ⟨j, hj, hge, hle⟩
      exact hlost.1 (Int.le_antisymm hle hge ▸ hj)
    have hrest := hsame time (Int.le_refl _)
    rw [if_neg hnone] at hrest
    exact hlost.2 hrest.symm
  · intro hkept t ht
    split
    · rfl
    · rename_i hnone
      have hkey : time ∉ line.keys := fun hmem => hnone ⟨time, hmem, Int.le_refl _, ht⟩
      rw [powerAt_eq_of_no_key ht fun j hj hjt => ?_, hkept.resolve_left hkey]
      rw [OrderedMap.get?_eq_none_iff]
      exact fun hmem => hnone ⟨j, hmem, hj.le, hjt⟩

/-- What a drive delivers until the time of the target. -/
theorem sum_driven (line : PowerTimeline) (change watts : Int) (hlt : now < time) :
    ∑ t ∈ Finset.Ico now time, PowerProfile.powerAt (driven line change watts now time) t
      = watts * min (secondsFor change watts) (time - now) := by
  have hseconds := secondsFor_nonneg change watts
  have hdrive : ∑ t ∈ Finset.Ico now (min (now + secondsFor change watts) time),
      PowerProfile.powerAt (driven line change watts now time) t
        = watts * (min (now + secondsFor change watts) time - now) :=
    sum_Ico_const (by omega) fun t hat htb => by
      rw [powerAt_driven line change watts hlt, if_neg (by omega), if_pos (by omega),
        if_pos (by omega)]
  have hrest : ∑ t ∈ Finset.Ico (min (now + secondsFor change watts) time) time,
      PowerProfile.powerAt (driven line change watts now time) t
        = 0 * (time - min (now + secondsFor change watts) time) :=
    sum_Ico_const (by omega) fun t hat htb => by
      rw [powerAt_driven line change watts hlt, if_neg (by omega), if_pos htb,
        if_neg (by omega)]
  rw [← sum_Ico_add_sum_Ico _ (show now ≤ min (now + secondsFor change watts) time by omega)
    (by omega), hdrive, hrest, Int.zero_mul, Int.add_zero,
    show min (now + secondsFor change watts) time - now
      = min (secondsFor change watts) (time - now) by omega]

end PowerTimeline

namespace DeviceState

variable {c : DeviceConfig} {change now time : Int}

/-! ## Towards a charge target -/

/-- The state with a drive on its timeline. -/
def withDrive (s : DeviceState) (change watts now time : Int) : DeviceState :=
  { s with scheduledPower := PowerTimeline.driven s.scheduledPower change watts now time }

/-- Power of a drive as far as the limits let it. -/
def cutPower (change duration : Int) (c : DeviceConfig) : Int :=
  max (-c.maxDischarge) (min (drivePower change duration) c.maxCharge)

theorem cutPower_eq_drivePower {duration : Int}
    (h : c.powerRange.contains (drivePower change duration)) :
    cutPower change duration c = drivePower change duration := by
  obtain ⟨hdischarge, hcharge⟩ := Interval.contains_iff.1 h
  simp only [DeviceConfig.powerRange] at hdischarge hcharge
  rw [cutPower]
  omega

/-- Between limits that do not exclude each other there is a power to drive with. -/
theorem driveTo_eq_ok (hlimits : -c.maxDischarge ≤ c.maxCharge) (s : DeviceState)
    (change time now : Int) :
    s.driveTo change time now c
      = .ok (s.withDrive change (cutPower change (time - now) c) now time) := by
  rw [driveTo, ← drivePower, Halt.clamp, if_neg (by omega)]
  rfl

/-- A target that lies ahead is noted and driven to. -/
theorem applyTargetSoc_eq_ok (hlimits : -c.maxDischarge ≤ c.maxCharge) (hlt : now < time)
    (s : DeviceState) (soc : Int) (current : Float) :
    s.applyTargetSoc soc time now current c = .ok
      { s.withDrive (energyChange soc current c.nominalCapacity)
          (cutPower (energyChange soc current c.nominalCapacity) (time - now) c) now time with
        targetSoc := soc, targetSocTime := time } := by
  rw [applyTargetSoc, if_neg (by omega), driveTo_eq_ok hlimits]
  rfl

/-- Ws that the timeline brings from `now` until `time`. -/
noncomputable def delivered (s : DeviceState) (now time : Int) : Int :=
  ∑ t ∈ Finset.Ico now time, s.powerAt t

theorem delivered_withDrive (s : DeviceState) (change : Int) (hlt : now < time) :
    (s.withDrive change (drivePower change (time - now)) now time).delivered now time
      = driveEnergy change (time - now) :=
  PowerTimeline.sum_driven s.scheduledPower change _ hlt

/-- A drive whose power the limits do not cut brings the energy of the target if the time divides
    it, or if the average power lies between two steps and is rounded up. It then has the direction
    of the target and exceeds it by less than what a second brings. Otherwise the average is on a
    step, it is in force all the time, and what the division leaves over is missing at the end. This
    holds of every amount of energy, and so of the one that a requested state of charge takes. -/
theorem drive_reaches_target_iff (s : DeviceState) (change : Int) (hlt : now < time)
    (huncut : c.powerRange.contains (drivePower change (time - now))) :
    ∃ s', s.driveTo change time now c = .ok s' ∧
      (change.natAbs ≤ (s'.delivered now time).natAbs ↔
        (time - now) ∣ change ∨ ¬ 100 ∣ change.tdiv (time - now)) ∧
      ((time - now) ∣ change ∨ ¬ 100 ∣ change.tdiv (time - now) →
        (s'.delivered now time).sign = change.sign ∧
          (change ≠ 0 → (s'.delivered now time).natAbs
            < change.natAbs + (drivePower change (time - now)).natAbs)) ∧
      (¬ ((time - now) ∣ change ∨ ¬ 100 ∣ change.tdiv (time - now)) →
        s'.delivered now time = change - change.tmod (time - now)) ∧
      ∀ soc current, energyChange soc current c.nominalCapacity = change →
        s.applyTargetSoc soc time now current c
          = .ok { s' with targetSoc := soc, targetSocTime := time } := by
  have hduration : 0 < time - now := by omega
  have hpower := cutPower_eq_drivePower huncut
  obtain ⟨hdischarge, hcharge⟩ := Interval.contains_iff.1 huncut
  have hlimits : -c.maxDischarge ≤ c.maxCharge := hdischarge.trans hcharge
  refine ⟨s.withDrive change (drivePower change (time - now)) now time, ?_, ?_⟩
  · rw [driveTo_eq_ok hlimits, hpower]
  rw [delivered_withDrive s change hlt]
  refine ⟨natAbs_le_driveEnergy_iff hduration, fun hreached => ?_, fun hmissed => ?_,
    fun soc current hchange => ?_⟩
  · obtain ⟨hsign, -, hless⟩ := driveEnergy_of_enough hduration
      ((natAbs_le_drivePower_mul_iff hduration).2 hreached)
    exact ⟨hsign, hless⟩
  · rw [← natAbs_le_drivePower_mul_iff hduration] at hmissed
    exact driveEnergy_of_short hduration hmissed
  · rw [applyTargetSoc_eq_ok hlimits hlt, hchange, hpower]

/-- 15 Wh and one Ws within an hour take 100 W for 541 s. Of 600 Wh in a second less than six hours
    there are 100 Ws missing at the end. -/
theorem drive_reaches_target_hour :
    (∃ s', fresh.driveTo 54001 3600 0 smallBattery = .ok s' ∧ 0 < s'.delivered 0 3600 ∧
      54001 ≤ (s'.delivered 0 3600).natAbs ∧ (s'.delivered 0 3600).natAbs < 54101) ∧
    ∃ s', fresh.driveTo 2160000 21599 0 smallBattery = .ok s' ∧
      s'.delivered 0 21599 = 2159900 := by
  constructor
  · obtain ⟨s', hok, hiff, hreached, -⟩ := drive_reaches_target_iff fresh 54001
      (show (0 : Int) < 3600 by decide) (show smallBattery.powerRange.contains _ by decide)
    have hrounded : ((3600 : Int) - 0) ∣ 54001 ∨ ¬ 100 ∣ (54001 : Int).tdiv (3600 - 0) := by decide
    obtain ⟨hsign, hless⟩ := hreached hrounded
    exact ⟨s', hok, Int.sign_eq_one_iff_pos.1 hsign, hiff.2 hrounded, hless (by decide)⟩
  · obtain ⟨s', hok, -, -, hmissed, -⟩ := drive_reaches_target_iff fresh 2160000
      (show (0 : Int) < 21599 by decide) (show smallBattery.powerRange.contains _ by decide)
    exact ⟨s', hok, hmissed (by decide)⟩

/-- 15 Wh within a day: the average is less than a watt, so that the device does not move at all. -/
theorem drive_misses_target : ∃ s', fresh.driveTo 54000 86400 0 smallBattery = .ok s' ∧
    smallBattery.powerRange.contains (drivePower 54000 (86400 - 0)) ∧
    s'.delivered 0 86400 = 0 := by
  refine ⟨_, driveTo_eq_ok (by decide) _ _ _ _, by decide, ?_⟩
  exact (delivered_withDrive fresh 54000 (by decide)).trans (by decide)

/-- What a drive leaves outside of its window: before it the power stays as it is, behind it the
    device rests until something is set. -/
theorem applyTargetSoc_outside (hlimits : -c.maxDischarge ≤ c.maxCharge) (hlt : now < time)
    (s : DeviceState) (soc : Int) (current : Float) :
    ∃ s', s.applyTargetSoc soc time now current c = .ok s' ∧
      s'.tasks = s.tasks ∧ s'.flexibilities = s.flexibilities ∧
      (∀ t, t < now → s'.powerAt t = s.powerAt t) ∧
      (∀ t, time ≤ t → s'.powerAt t
        = if s.scheduledPower.SetBetween time t then s.powerAt t else 0) := by
  refine ⟨_, applyTargetSoc_eq_ok hlimits hlt s soc current, rfl, rfl, fun t ht => ?_,
    fun t ht => ?_⟩
  · exact (PowerTimeline.powerAt_driven _ _ _ hlt t).trans (if_pos ht)
  · refine (PowerTimeline.powerAt_driven _ _ _ hlt t).trans ?_
    rw [if_neg (by omega), if_neg (by omega)]
    rfl

/-- Before the drive the power stays as it is. Behind it it is what it was wherever something has
    been set since the time of the target, and 0 W until then, so that it stays as it is throughout
    exactly if there is a setpoint at that time or the device was at rest. Tasks and flexibilities
    are left alone. -/
theorem drive_unchanged_outside_iff (hcharge : 0 ≤ c.maxCharge) (hdischarge : 0 ≤ c.maxDischarge)
    (hlt : now < time) (s : DeviceState) (soc : Int) (current : Float) :
    ∃ s', s.applyTargetSoc soc time now current c = .ok s' ∧
      s'.tasks = s.tasks ∧ s'.flexibilities = s.flexibilities ∧
      (∀ t, t < now → s'.powerAt t = s.powerAt t) ∧
      (∀ t, time ≤ t → s'.powerAt t
        = if s.scheduledPower.SetBetween time t then s.powerAt t else 0) ∧
      ((∀ t, time ≤ t → s'.powerAt t = s.powerAt t) ↔
        time ∈ s.scheduledPower.keys ∨ s.powerAt time = 0) := by
  obtain ⟨s', hok, htasks, hflexibilities, hbefore, hbehind⟩ :=
    applyTargetSoc_outside (show -c.maxDischarge ≤ c.maxCharge by omega) hlt s soc current
  refine ⟨s', hok, htasks, hflexibilities, hbefore, hbehind, Iff.trans
    (forall₂_congr fun t ht => ?_) (PowerTimeline.powerAt_behind_iff s.scheduledPower time)⟩
  rw [hbehind t ht]
  rfl

/-- Two days in which 20 W are charged. -/
def slowCharge : DeviceState :=
  [.adapt 0 (.ofList [(0, 20), (86400, 0)]),
   .adapt 1 (.ofList [(0, 20), (86400, 0)])].foldl DeviceOperation.perform twoWholeDays

/-- A drive until midnight leaves the second day alone. -/
theorem drive_unchanged_outside_midnight :
    ∃ s', slowCharge.applyTargetSoc 60 86400 43200 50 smallBattery = .ok s' ∧
      s'.tasks = slowCharge.tasks ∧
      (∀ t, t < 43200 ∨ 86400 ≤ t → s'.powerAt t = slowCharge.powerAt t) ∧
      slowCharge.powerAt 0 = 20 ∧ slowCharge.powerAt 86400 = 20 := by
  obtain ⟨s', hok, htasks, -, hbefore, -, hbehind⟩ :=
    drive_unchanged_outside_iff (c := smallBattery) (by decide) (by decide)
      (show (43200 : Int) < 86400 by decide) slowCharge 60 50
  have hset : (86400 : Int) ∈ slowCharge.scheduledPower.keys := by decide +kernel
  refine ⟨s', hok, htasks, fun t ht => ?_, by decide +kernel, by decide +kernel⟩
  exact ht.elim (hbefore t) (hbehind.2 (.inl hset) t)

/-- A drive until noon puts an end to the charging, which went on until midnight. -/
theorem drive_loses_setpoint :
    Reachable (fun _ => True) slowCharge ∧
      ∃ s', slowCharge.applyTargetSoc 60 43200 0 50 smallBattery = .ok s' ∧
        slowCharge.powerAt 43200 = 20 ∧ s'.powerAt 43200 = 0 := by
  obtain ⟨s', hok, -, -, -, hbehind⟩ :=
    applyTargetSoc_outside (c := smallBattery) (by decide)
      (show (0 : Int) < 43200 by decide) slowCharge 60 50
  have hunset : ¬ slowCharge.scheduledPower.SetBetween 43200 43200 := by
    have hnone : ∀ j ∈ slowCharge.scheduledPower.keys, j ≠ 43200 := by decide +kernel
    rintro ⟨j, hj, hge, hle⟩
    exact hnone j hj (Int.le_antisymm hle hge)
  refine ⟨(narrow_twoWholeDays.mono fun _ _ => trivial).foldl _ fun _ _ => trivial,
    s', hok, by decide +kernel, ?_⟩
  rw [hbehind 43200 (by decide), if_neg hunset]

end DeviceState
end SiteDispatch
