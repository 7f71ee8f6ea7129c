/-
  SiteDispatch.Proofs.Calendar.Partition

  When local days divide time among them.

  The start of a day and that of the next one are looked for by the date of the instant, and
  each has a fallback of its own for a midnight that the clocks skip. The instants of a date are
  the interval between the two midnights as long as no clock is set back across either of them.
  A skipped midnight is never made up for: the instant that stands in for it lies in a day for
  which another start is found.
-/

import SiteDispatch.Proofs.Calendar.Forward

namespace SiteDispatch
namespace Calendar

/-- The day that is found for an instant holds it, is found for each of its instants, and ends
    where a day begins. -/
structure DayAround (z : Zone) (t : Int) : Prop where
  starts : startOfDay z t ≤ t
  ends : t < startOfNextDay z t
  common : ∀ u, startOfDay z t ≤ u → u < startOfNextDay z t →
    startOfDay z u = startOfDay z t ∧ startOfNextDay z u = startOfNextDay z t
  begins : startOfDay z (startOfNextDay z t) = startOfNextDay z t

/-- A date stands for one day, whichever of its instants is asked about. -/
def DayOfDate (z : Zone) (d : Int) : Prop := ∀ t, hasDate t → dayNumber z t = d → DayAround z t

theorem hasDate_iff {t : Int} : hasDate t ↔ firstInstant ≤ t ∧ t ≤ lastInstant := by
  simp [hasDate]

end Calendar

namespace Zone

open Calendar

variable {z : Zone} {low high d m n t : Int}

/-! ## Midnights -/

theorem localTime_of_timeOfDay? (h : timeOfDay? z d 0 = some m) :
    z.localTime m = d * daySeconds := by
  rw [timeOfDay?] at h
  split at h
  · rw [localTime_of_instantOf? h, Int.add_zero]
  · cases h

/-- Midnight is an instant of the day that it starts. -/
theorem dayNumber_of_timeOfDay? (h : timeOfDay? z d 0 = some m) : dayNumber z m = d := by
  rw [dayNumber, localTime_of_timeOfDay? h]
  exact Int.mul_ediv_cancel _ (by decide)

theorem startOfDay_of_shown (hdate : hasDate t) (h : timeOfDay? z (dayNumber z t) 0 = some m) :
    startOfDay z t = m := by
  rw [startOfDay, if_pos hdate, h]
  rfl

theorem startOfDay_of_skipped (h : timeOfDay? z (dayNumber z t) 0 = none) :
    startOfDay z t = t - t % daySeconds := by
  rw [startOfDay, h, ite_self]
  rfl

theorem startOfNextDay_of_shown (hdate : hasDate t)
    (h : timeOfDay? z (dayNumber z t + 1) 0 = some n) : startOfNextDay z t = n := by
  rw [startOfNextDay, if_pos hdate, h]
  rfl

theorem startOfNextDay_of_skipped (h : timeOfDay? z (dayNumber z t + 1) 0 = none) :
    startOfNextDay z t = startOfDay z t + daySeconds := by
  rw [startOfNextDay, h, ite_self]
  rfl

/-- An instant has the date of the day that is found for it, if both midnights of that are
    shown. -/
theorem dayNumber_of_found (hoffsets : ∀ o ∈ z.offsets, -daySeconds < o ∧ o < daySeconds)
    (hm : timeOfDay? z d 0 = some m) (hn : timeOfDay? z (d + 1) 0 = some n) (hdate : hasDate t)
    (hstart : startOfDay z t = m) (hnext : startOfNextDay z t = n) : dayNumber z t = d := by
  cases hfirst : timeOfDay? z (dayNumber z t) 0 with
  | some k =>
      rw [startOfDay_of_shown hdate hfirst] at hstart
      rw [← dayNumber_of_timeOfDay? hfirst, hstart, dayNumber_of_timeOfDay? hm]
  | none =>
      cases hsecond : timeOfDay? z (dayNumber z t + 1) 0 with
      | some k =>
          rw [startOfNextDay_of_shown hdate hsecond] at hnext
          have hk := dayNumber_of_timeOfDay? hsecond
          rw [hnext, dayNumber_of_timeOfDay? hn] at hk
          omega
      | none =>
          -- Both fall back on a day of UTC, so that the date is `d` or one next to it. Those
          -- share a midnight with `d`, which would have been found.
          have hfallback := startOfDay_of_skipped hfirst
          have hfallback' := startOfNextDay_of_skipped hsecond
          have hmlocal := localTime_of_timeOfDay? hm
          have hmoffset := hoffsets _ (z.offsetAt_mem_offsets m)
          have htoffset := hoffsets _ (z.offsetAt_mem_offsets t)
          have hdates : dayNumber z t = d ∨ dayNumber z t + 1 = d ∨ dayNumber z t = d + 1 := by
            simp only [dayNumber, localTime, daySeconds] at *
            omega
          rcases hdates with hd | hd | hd
          · exact hd
          · rw [hd, hm] at hsecond
            cases hsecond
          · rw [hd, hn] at hfirst
            cases hfirst

/-- A date of which both midnights are shown stands for one day exactly if its instants are
    those between them. -/
theorem dayOfDate_iff_between (hoffsets : ∀ o ∈ z.offsets, -daySeconds < o ∧ o < daySeconds)
    (hm : timeOfDay? z d 0 = some m) (hn : timeOfDay? z (d + 1) 0 = some n)
    (hmdate : hasDate m) (hndate : hasDate n) :
    DayOfDate z d ↔ ∀ t, hasDate t → (dayNumber z t = d ↔ m ≤ t ∧ t < n) := by
  have hfound : ∀ t, hasDate t → dayNumber z t = d →
      startOfDay z t = m ∧ startOfNextDay z t = n :=
    fun t hdate hd => ⟨startOfDay_of_shown hdate (by rw [hd, hm]),
      startOfNextDay_of_shown hdate (by rw [hd, hn])⟩
  constructor
  · intro hday t hdate
    refine ⟨fun hd => ?_, fun hinside => ?_⟩
    · obtain ⟨hstart, hnext⟩ := hfound t hdate hd
      have haround := hday t hdate hd
      exact ⟨hstart ▸ haround.starts, hnext ▸ haround.ends⟩
    · -- What is found for the midnight is found for the instant.
      have hmd := dayNumber_of_timeOfDay? hm
      obtain ⟨hstart, hnext⟩ := hfound m hmdate hmd
      have hcommon := (hday m hmdate hmd).common t
      rw [hstart, hnext] at hcommon
      obtain ⟨hsame, hsame'⟩ := hcommon hinside.1 hinside.2
      exact dayNumber_of_found hoffsets hm hn hdate hsame hsame'
  · intro hbetween t hdate hd
    obtain ⟨hmt, htn⟩ := (hbetween t hdate).1 hd
    obtain ⟨hstart, hnext⟩ := hfound t hdate hd
    have hbegins : startOfDay z n = n :=
      startOfDay_of_shown hndate (by rw [dayNumber_of_timeOfDay? hn, hn])
    refine ⟨by rwa [hstart], by rwa [hnext], ?_, by rwa [hnext]⟩
    rw [hstart, hnext]
    intro u hmu hun
    have hudate : hasDate u := by
      rw [hasDate_iff] at hmdate hndate ⊢
      omega
    exact hfound u hudate ((hbetween u hudate).2 ⟨hmu, hun⟩)

/-! ## Around a change -/

theorem ChangesSeldom.offsetAt_after (h : z.ChangesSeldom) {k : Int} (hk : k ∈ z.changes.keys)
    (hkt : k ≤ t) (ht : t < k + 172800) : z.offsetAt t = z.offsetAt k := by
  by_contra hne
  obtain ⟨l, hl, hkl, hlt⟩ := exists_change_of_offsetAt_ne hkt hne
  have := h.apart hk hl hkl
  omega

theorem ChangesSeldom.offsetAt_before (h : z.ChangesSeldom) {k : Int} (hk : k ∈ z.changes.keys)
    (htk : t < k) (ht : k - 172800 ≤ t) : z.offsetAt t = z.offsetAt (k - 1) := by
  by_contra hne
  obtain ⟨l, hl, htl, hlk⟩ := exists_change_of_offsetAt_ne (show t ≤ k - 1 by omega) (Ne.symm hne)
  have := h.apart hl hk (by omega)
  omega

namespace SetWithin

variable (h : z.SetWithin low high)
include h

/-- Dates come one after the other. -/
theorem dayNumber_mono {u : Int} (htu : t ≤ u) : dayNumber z t ≤ dayNumber z u := by
  have ht := h.offset _ (z.offsetAt_mem_offsets t)
  have hu := h.offset _ (z.offsetAt_mem_offsets u)
  by_cases hsame : z.offsetAt u = z.offsetAt t
  · simp only [dayNumber, localTime, daySeconds] at *
    omega
  · obtain ⟨k, hk, htk, hku⟩ := exists_change_of_offsetAt_ne htu hsame
    have := (h.change k hk).1
    simp only [dayNumber, localTime, daySeconds] at *
    omega

/-- Midnight is the first instant of its day. -/
theorem midnight_le (hm : timeOfDay? z d 0 = some m) (hd : dayNumber z t = d) : m ≤ t := by
  by_contra hlt
  have hmoffset := h.offset _ (z.offsetAt_mem_offsets m)
  have htoffset := h.offset _ (z.offsetAt_mem_offsets t)
  have hbounds := h.bounds
  have hlocal := localTime_of_timeOfDay? hm
  -- The clocks are set back before they show midnight.
  have hback : z.offsetAt m ≠ z.offsetAt t := by
    simp only [dayNumber, localTime, daySeconds] at *
    omega
  obtain ⟨l, hl, htl, hlm⟩ := exists_change_of_offsetAt_ne (by omega) hback
  -- So they have not been set before that day, and have shown midnight when it began.
  have hsame : z.offsetAt (d * daySeconds - z.offsetAt t) = z.offsetAt t := by
    rw [h.seldom.offsetAt_before hl, ← h.seldom.offsetAt_before hl htl]
    all_goals
      simp only [dayNumber, localTime, daySeconds] at *
      omega
  obtain ⟨first, hfirst, hle⟩ := z.exists_instantOf?_le (d * daySeconds - z.offsetAt t)
  have hearliest : first = m := by
    rw [localTime, hsame, Int.sub_add_cancel] at hfirst
    rw [timeOfDay?, Int.add_zero] at hm
    split at hm
    · exact Option.some.inj (hfirst.symm.trans hm)
    · cases hm
  simp only [dayNumber, localTime, daySeconds] at *
  omega

/-- A midnight that is never shown is skipped by a change. -/
theorem exists_skip (hlast : d ≤ lastInstant / daySeconds) (hnone : timeOfDay? z d 0 = none) :
    ∃ k ∈ z.changes.keys, k + z.offsetAt (k - 1) ≤ d * daySeconds ∧
      d * daySeconds < k + z.offsetAt k := by
  rw [timeOfDay?, if_pos hlast, Int.add_zero] at hnone
  obtain ⟨k, hk, hafter, hbefore⟩ := exists_change_of_instantOf?_eq_none h.offset hnone
  have hkoffset := h.offset _ (z.offsetAt_mem_offsets k)
  have hkoffset' := h.offset _ (z.offsetAt_mem_offsets (k - 1))
  have hbounds := h.bounds
  have hnever : ∀ u, z.localTime u ≠ d * daySeconds := by
    intro u hu
    obtain ⟨first, hfirst, -⟩ := z.exists_instantOf?_le u
    rw [hu, hnone] at hfirst
    cases hfirst
  refine ⟨k, hk, ?_, ?_⟩
  · by_contra hshown
    refine hnever (d * daySeconds - z.offsetAt (k - 1)) ?_
    rw [localTime, h.seldom.offsetAt_before hk
      (show d * daySeconds - z.offsetAt (k - 1) < k by omega) (by omega), Int.sub_add_cancel]
  · by_contra hshown
    refine hnever (d * daySeconds - z.offsetAt k) ?_
    rw [localTime, h.seldom.offsetAt_after hk
      (show k ≤ d * daySeconds - z.offsetAt k by omega) (by omega), Int.sub_add_cancel]

/-- No two midnights within three days are skipped. -/
theorem skips_apart {e : Int} (hed : e < d) (hlast : d ≤ lastInstant / daySeconds)
    (he : timeOfDay? z e 0 = none) (hd : timeOfDay? z d 0 = none) : e + 3 ≤ d := by
  obtain ⟨l, hl, hlbefore, hlafter⟩ := h.exists_skip (by omega) he
  obtain ⟨k, hk, hbefore, hafter⟩ := h.exists_skip hlast hd
  have hbounds := h.bounds
  have hloffset := h.offset _ (z.offsetAt_mem_offsets l)
  have hloffset' := h.offset _ (z.offsetAt_mem_offsets (l - 1))
  have hkoffset := h.offset _ (z.offsetAt_mem_offsets k)
  have hkoffset' := h.offset _ (z.offsetAt_mem_offsets (k - 1))
  have hlk : l < k := by
    simp only [daySeconds] at *
    rcases Int.lt_trichotomy l k with hlt | heq | hgt
    · exact hlt
    · subst heq
      omega
    · have := h.seldom.apart hk hl hgt
      omega
  have hapart := h.seldom.apart hl hk hlk
  simp only [daySeconds] at *
  by_cases hkept : z.offsetAt (k - 1) = z.offsetAt l
  · omega
  · -- Then there is a third change between the two.
    obtain ⟨j, hj, hlj, hjk⟩ := exists_change_of_offsetAt_ne (show l ≤ k - 1 by omega) hkept
    have := h.seldom.apart hl hj hlj
    have := h.seldom.apart hj hk (by omega)
    omega

/-! ## Days of these clocks -/

theorem startOfDay_le (t : Int) : startOfDay z t ≤ t := by
  by_cases hdate : hasDate t
  · cases hm : timeOfDay? z (dayNumber z t) 0 with
    | some m =>
        rw [startOfDay_of_shown hdate hm]
        exact h.midnight_le hm rfl
    | none =>
        rw [startOfDay_of_skipped hm]
        simp only [daySeconds]
        omega
  · rw [startOfDay, if_neg hdate]
    simp only [Option.getD_none, daySeconds]
    omega

/-- A day after which midnight is skipped is over within 24 hours. -/
theorem lt_add_daySeconds_of_next_skipped (hm : timeOfDay? z (dayNumber z t) 0 = some m)
    (hn : timeOfDay? z (dayNumber z t + 1) 0 = none) : t < m + daySeconds := by
  by_contra hle
  have hmoffset := h.offset _ (z.offsetAt_mem_offsets m)
  have hlocal := localTime_of_timeOfDay? hm
  -- It takes clocks that are set back within the day to make it longer than that.
  have hback : z.offsetAt t ≠ z.offsetAt m := by
    simp only [dayNumber, localTime, daySeconds] at *
    omega
  obtain ⟨l, hl, hml, hlt⟩ := exists_change_of_offsetAt_ne (h.midnight_le hm rfl) hback
  have hbounds := h.bounds
  have hearly := (h.change l hl).2.2.1
  by_cases hlast : dayNumber z t + 1 ≤ lastInstant / daySeconds
  · -- They are set at its end then, too soon after.
    obtain ⟨k, hk, hbefore, hafter⟩ := h.exists_skip hlast hn
    have hkoffset := h.offset _ (z.offsetAt_mem_offsets (k - 1))
    have htk : t < k := by
      by_contra hkt
      have hmono := h.dayNumber_mono (show k ≤ t by omega)
      simp only [dayNumber, localTime, daySeconds] at *
      omega
    have hapart := h.seldom.apart hl hk (by omega)
    simp only [dayNumber, localTime, daySeconds] at *
    omega
  · simp only [dayNumber, localTime, daySeconds, lastInstant] at *
    omega

theorem lt_startOfNextDay (hdate : hasDate t) : t < startOfNextDay z t := by
  cases hn : timeOfDay? z (dayNumber z t + 1) 0 with
  | some n =>
      rw [startOfNextDay_of_shown hdate hn]
      by_contra hle
      have hmono := h.dayNumber_mono (show n ≤ t by omega)
      rw [dayNumber_of_timeOfDay? hn] at hmono
      omega
  | none =>
      rw [startOfNextDay_of_skipped hn]
      cases hm : timeOfDay? z (dayNumber z t) 0 with
      | none =>
          rw [startOfDay_of_skipped hm]
          simp only [daySeconds]
          omega
      | some m =>
          rw [startOfDay_of_shown hdate hm]
          exact h.lt_add_daySeconds_of_next_skipped hm hn

/-- A day of such clocks is ordinary as soon as it has no more than 30 hours. -/
theorem ordinaryDay_iff (t : Int) :
    z.OrdinaryDay t ↔ startOfNextDay z t - startOfDay z t ≤ longestDay := by
  refine ⟨fun hday => hday.short, fun hshort => ?_⟩
  have hbounds := h.bounds
  refine ⟨forward_of_seldom h.seldom (by omega) h.offset t, ?_, hshort⟩
  by_cases hdate : hasDate t
  · have := h.lt_startOfNextDay hdate
    omega
  · rw [startOfDay, if_neg hdate]
    simp only [Option.getD_none, daySeconds, longestDay]
    omega

/-- A date of which both midnights are shown stands for one day. -/
theorem dayOfDate (hfirst : firstInstant / daySeconds < d) (hlast : d < lastInstant / daySeconds)
    (hm : timeOfDay? z d 0 = some m) (hn : timeOfDay? z (d + 1) 0 = some n) : DayOfDate z d := by
  have hbounds := h.bounds
  have hmoffset := h.offset _ (z.offsetAt_mem_offsets m)
  have hnoffset := h.offset _ (z.offsetAt_mem_offsets n)
  have hmlocal := localTime_of_timeOfDay? hm
  have hnlocal := localTime_of_timeOfDay? hn
  have hdates : hasDate m ∧ hasDate n := by
    rw [hasDate_iff, hasDate_iff]
    simp only [localTime, daySeconds, firstInstant, lastInstant] at *
    omega
  have hoffsets : ∀ o ∈ z.offsets, -daySeconds < o ∧ o < daySeconds := by
    intro o ho
    have := h.offset o ho
    simp only [daySeconds]
    omega
  rw [dayOfDate_iff_between hoffsets hm hn hdates.1 hdates.2]
  intro t _
  constructor
  · intro hd
    refine ⟨h.midnight_le hm hd, ?_⟩
    by_contra hle
    have hmono := h.dayNumber_mono (show n ≤ t by omega)
    rw [dayNumber_of_timeOfDay? hn] at hmono
    omega
  · rintro ⟨hmt, htn⟩
    have hmono := h.dayNumber_mono hmt
    have hmono' := h.dayNumber_mono (show t ≤ n by omega)
    rw [dayNumber_of_timeOfDay? hm] at hmono
    rw [dayNumber_of_timeOfDay? hn] at hmono'
    -- With the date of the next midnight the instant would come no earlier than that.
    have hnot : dayNumber z t ≠ d + 1 := fun hd => by
      have := h.midnight_le hn hd
      omega
    omega

/-- If the first midnight is skipped, the instant at which that happens belongs to a day of UTC
    that began earlier, while the clocks showed another time than UTC. -/
theorem not_dayOfDate_of_skipped (hfirst : firstInstant / daySeconds < d)
    (hlast : d < lastInstant / daySeconds) (hnone : timeOfDay? z d 0 = none) :
    ¬ DayOfDate z d := by
  intro hday
  obtain ⟨k, hk, hbefore, hafter⟩ := h.exists_skip (by omega) hnone
  have hbounds := h.bounds
  have hkoffset := h.offset _ (z.offsetAt_mem_offsets k)
  have hkoffset' := h.offset _ (z.offsetAt_mem_offsets (k - 1))
  obtain ⟨-, hutc, -, hside⟩ := h.change k hk
  have hkd : dayNumber z k = d := by
    simp only [dayNumber, localTime, daySeconds] at *
    omega
  have hkdate : hasDate k := by
    rw [hasDate_iff]
    simp only [daySeconds, firstInstant, lastInstant] at *
    omega
  have haround := hday k hkdate hkd
  have hstart : startOfDay z k = k - k % daySeconds := startOfDay_of_skipped (by rw [hkd, hnone])
  have hsame := (haround.common _ (Int.le_refl _)
    (by have := haround.starts; have := haround.ends; omega)).1
  have hudate : hasDate (startOfDay z k) := by
    rw [hasDate_iff, hstart]
    simp only [daySeconds, firstInstant, lastInstant] at *
    omega
  have hoffset : z.offsetAt (startOfDay z k) = z.offsetAt (k - 1) := by
    refine h.seldom.offsetAt_before hk ?_ ?_ <;>
    · rw [hstart]
      simp only [daySeconds] at *
      omega
  rcases z.startOfDay_cases (startOfDay z k) with hmidnight | ⟨-, hagain⟩
  · -- A midnight that is also one of UTC.
    rw [hsame, hoffset, hstart] at hmidnight
    simp only [daySeconds] at *
    omega
  · -- The day before would begin without a midnight as well.
    have hdates : d ≤ dayNumber z (startOfDay z k) + 2 ∧ dayNumber z (startOfDay z k) < d := by
      rw [dayNumber, localTime, hoffset, hstart]
      simp only [daySeconds] at *
      omega
    have := h.skips_apart hdates.2 (by omega) (hagain hudate) hnone
    omega

/-- If the second midnight is skipped, the end of the day is put where the clocks already show
    another time, and the day that is found there began earlier. -/
theorem not_dayOfDate_of_next_skipped (hfirst : firstInstant / daySeconds < d)
    (hlast : d < lastInstant / daySeconds) (hm : timeOfDay? z d 0 = some m)
    (hnone : timeOfDay? z (d + 1) 0 = none) : ¬ DayOfDate z d := by
  intro hday
  obtain ⟨k, hk, hbefore, hafter⟩ := h.exists_skip (by omega) hnone
  have hbounds := h.bounds
  have hkoffset := h.offset _ (z.offsetAt_mem_offsets k)
  have hkoffset' := h.offset _ (z.offsetAt_mem_offsets (k - 1))
  obtain ⟨-, -, -, hside⟩ := h.change k hk
  have hmoffset := h.offset _ (z.offsetAt_mem_offsets m)
  have hmlocal := localTime_of_timeOfDay? hm
  have hmd := dayNumber_of_timeOfDay? hm
  have hmdate : hasDate m := by
    rw [hasDate_iff]
    simp only [localTime, daySeconds, firstInstant, lastInstant] at *
    omega
  have hmk : m < k := by
    by_contra hkm
    have hmono := h.dayNumber_mono (show k ≤ m by omega)
    simp only [dayNumber, localTime, daySeconds] at *
    omega
  have hoffset : z.offsetAt m = z.offsetAt (k - 1) := by
    refine h.seldom.offsetAt_before hk hmk ?_
    simp only [localTime, daySeconds] at *
    omega
  have hstart : startOfDay z m = m := startOfDay_of_shown hmdate (by rw [hmd, hm])
  have hnext : startOfNextDay z m = m + daySeconds := by
    rw [startOfNextDay_of_skipped (by rw [hmd, hnone]), hstart]
  have hbegins := (hday m hmdate hmd).begins
  rw [localTime, hoffset] at hmlocal
  have hoffset' : z.offsetAt (m + daySeconds) = z.offsetAt k := by
    refine h.seldom.offsetAt_after hk ?_ ?_ <;>
    · simp only [daySeconds] at *
      omega
  have hdate : dayNumber z (m + daySeconds) = d + 1 := by
    rw [dayNumber, localTime, hoffset']
    simp only [daySeconds] at *
    omega
  rw [hnext, startOfDay_of_skipped (by rw [hdate, hnone])] at hbegins
  simp only [daySeconds] at *
  omega

/-- A date stands for one day exactly if both midnights are shown. -/
theorem dayOfDate_iff (hfirst : firstInstant / daySeconds < d)
    (hlast : d < lastInstant / daySeconds) :
    DayOfDate z d ↔ timeOfDay? z d 0 ≠ none ∧ timeOfDay? z (d + 1) 0 ≠ none := by
  cases hm : timeOfDay? z d 0 with
  | none => simpa using h.not_dayOfDate_of_skipped hfirst hlast hm
  | some m =>
      cases hn : timeOfDay? z (d + 1) 0 with
      | none => simpa using h.not_dayOfDate_of_next_skipped hfirst hlast hm hn
      | some n => simpa using h.dayOfDate hfirst hlast hm hn

end SetWithin

-- In Kathmandu the first day of 1986 is not ordinary, but the one after it is.
example : ¬ kathmandu.OrdinaryDay 504901800 ∧ kathmandu.OrdinaryDay 504987300 := by
  obtain ⟨low, high, h⟩ := setWithin_of_mem kathmandu (by simp [Zone.all])
  rw [h.ordinaryDay_iff, h.ordinaryDay_iff]
  decide +kernel

/-- In a zone whose clocks are set as those of every zone of the table are (seldom, never back
    into the day before, not at midnight in UTC, and always ahead of UTC or always behind it) each
    instant lies in the day that is found for it, and on every date but those at the two ends of
    the calendar these days divide time if and only if the clocks show the midnight at its start
    and the one at its end. Whatever the zone, a date of which both are shown stands for one day
    exactly if its instants are those between the two. -/
theorem days_divide_time_iff (z : Zone) :
    (z ∈ Zone.all → ∃ low high, z.SetWithin low high) ∧
    (∀ low high, z.SetWithin low high →
      (∀ t, hasDate t → startOfDay z t ≤ t ∧ t < startOfNextDay z t) ∧
      ∀ d, firstInstant / daySeconds < d → d < lastInstant / daySeconds →
        (DayOfDate z d ↔ timeOfDay? z d 0 ≠ none ∧ timeOfDay? z (d + 1) 0 ≠ none)) ∧
    ((∀ o ∈ z.offsets, -daySeconds < o ∧ o < daySeconds) →
      ∀ d m n, timeOfDay? z d 0 = some m → timeOfDay? z (d + 1) 0 = some n →
        hasDate m → hasDate n →
        (DayOfDate z d ↔ ∀ t, hasDate t → (dayNumber z t = d ↔ m ≤ t ∧ t < n))) := by
  refine ⟨setWithin_of_mem z, fun low high h => ?_,
    fun hoffsets d m n => dayOfDate_iff_between hoffsets⟩
  exact ⟨fun t hdate => ⟨h.startOfDay_le t, h.lt_startOfNextDay hdate⟩, fun d => h.dayOfDate_iff⟩

/-- The clocks of Sao Paulo skipped the midnight with which 2018-11-04 would have begun. The day
    before ends where they show 01:00, and the day that is found there began at 21:00. -/
theorem skipped_midnight_begins_no_day :
    saoPaulo ∈ Zone.all ∧ hasDate 1541300399 ∧ ¬ DayAround saoPaulo 1541300399 := by
  refine ⟨by simp [Zone.all], by decide, fun h => ?_⟩
  have hend : startOfNextDay saoPaulo 1541300399 = 1541300400 := by decide +kernel
  have hstart : startOfDay saoPaulo 1541300400 = 1541289600 := by decide +kernel
  have hbegins := h.begins
  rw [hend, hstart] at hbegins
  cases hbegins

/-- Clocks two hours ahead that are set back at half past midnight, by an hour. -/
def setBackAtNight : Zone := ⟨"Set back", 7200, OrderedMap.ofList [(81000, 3600)]⟩

/-- The last day of March 2024 is a day of 23 hours in Berlin. A date that begins before clocks
    are set back across midnight does not stand for one day. -/
theorem days_divide_time_march :
    (startOfNextDay berlin 1711890000 - startOfDay berlin 1711890000 = 82800 ∧
      DayAround berlin 1711890000) ∧
    ¬ DayOfDate setBackAtNight 1 := by
  constructor
  · refine ⟨by decide +kernel, ?_⟩
    obtain ⟨low, high, hset⟩ := (days_divide_time_iff berlin).1 (by simp [Zone.all])
    have hday := ((days_divide_time_iff berlin).2.1 low high hset).2 19813 (by decide) (by decide)
    exact hday.2 ⟨by decide +kernel, by decide +kernel⟩ 1711890000 (by decide) (by decide +kernel)
  · -- The clocks show 23:30 of the day before after they have shown midnight.
    have hday := (days_divide_time_iff setBackAtNight).2.2
      (forall_offsets (by decide) (by decide)) 1 79200 169200 (by decide) (by decide)
      (by decide) (by decide)
    rw [hday]
    intro hbetween
    have hinside := (hbetween 81000 (by decide)).2 (by decide)
    exact absurd hinside (by decide)

end Zone
end SiteDispatch
