/-
  SiteDispatch.Proofs.Calendar.Day

  How long local days are.

  The start of a day is an instant at which the clocks show midnight, or the start of
  the day in UTC where they skip it. In the first case a day deviates from 24 hours by
  no more than the clocks are ever set. A skipped midnight costs up to another day in
  zones ahead of UTC, whose local days begin before the day in UTC does; behind UTC it
  costs no more than the offset.
-/

import SiteDispatch.Calendar.ZoneTable
import SiteDispatch.Calendar.Day
import SiteDispatch.Proofs.OrderedMap.StepFunction

namespace SiteDispatch

/-- Seconds of 30 hours. -/
def longestDay : Int := 108000

/-- The local day of `t` runs forward, `t` is no more than 30 hours after its start, and it
    is no longer than that. -/
structure Zone.OrdinaryDay (z : Zone) (t : Int) : Prop where
  forward : Calendar.startOfDay z t ≤ Calendar.startOfNextDay z t
  near : t - Calendar.startOfDay z t ≤ longestDay
  short : Calendar.startOfNextDay z t - Calendar.startOfDay z t ≤ longestDay

/-- All days of the zone are ordinary. -/
def Zone.Ordinary (z : Zone) : Prop := ∀ t, z.OrdinaryDay t

namespace Zone

variable {z : Zone} {low high : Int}

/-! ## Offsets -/

theorem offsetAt_mem_offsets (z : Zone) (t : Int) : z.offsetAt t ∈ z.offsets := by
  rw [offsets, List.mem_eraseDups, offsetAt]
  cases hfloor : z.changes.floorValue? t with
  | none => exact List.mem_cons_self
  | some o =>
      obtain ⟨k, -, hk⟩ := OrderedMap.exists_key_of_floorValue? hfloor
      exact List.mem_cons_of_mem _ (OrderedMap.mem_values_iff_get?.2 ⟨k, hk⟩)

/-- Every offset is the initial one or written down with a change. -/
theorem forall_offsets {name : String} {initial : Int} {changes : List (Int × Int)}
    {P : Int → Prop} (hinitial : P initial) (hchanges : ∀ e ∈ changes, P e.2) :
    ∀ o ∈ offsets ⟨name, initial, OrderedMap.ofList changes⟩, P o := by
  intro o ho
  rw [offsets, List.mem_eraseDups] at ho
  rcases List.mem_cons.1 ho with rfl | ho
  · exact hinitial
  · obtain ⟨k, hk⟩ := OrderedMap.mem_values_iff_get?.1 ho
    exact hchanges _ (OrderedMap.mem_of_get?_ofList hk)

/-- Every change is written down. -/
theorem forall_changes {name : String} {initial : Int} {changes : List (Int × Int)}
    {P : Int → Prop} (hchanges : ∀ e ∈ changes, P e.1) :
    ∀ k ∈ (Zone.mk name initial (OrderedMap.ofList changes)).changes.keys, P k := by
  intro k hk
  obtain ⟨o, ho⟩ := OrderedMap.mem_keys_iff_get?.1 hk
  exact hchanges _ (OrderedMap.mem_of_get?_ofList ho)

theorem localTime_of_instantOf? {shown t : Int} (h : z.instantOf? shown = some t) :
    z.localTime t = shown := by
  have hmem := List.min?_mem h
  simpa using (List.mem_filter.1 hmem).2

/-- What the clocks show at an instant they show for the first time no later than then. -/
theorem exists_instantOf?_le (z : Zone) (t : Int) :
    ∃ m, z.instantOf? (z.localTime t) = some m ∧ m ≤ t := by
  have hcandidate : t ∈ (z.offsets.map (fun o => z.localTime t - o)).filter
      (fun u => z.localTime u = z.localTime t) := by
    refine List.mem_filter.2 ⟨List.mem_map.2 ⟨_, z.offsetAt_mem_offsets t, ?_⟩, by simp⟩
    rw [localTime]
    omega
  obtain ⟨m, hm⟩ : ∃ m, z.instantOf? (z.localTime t) = some m := by
    rw [instantOf?, ← Option.isSome_iff_exists, List.isSome_min?_iff]
    exact List.ne_nil_of_mem hcandidate
  exact ⟨m, hm, (List.min?_eq_some_iff.1 hm).2 t hcandidate⟩

/-- Clocks that are not set between the instants at which they could show a time show it. -/
theorem exists_instantOf? (shown : Int) (hoffsets : ∀ o ∈ z.offsets, low ≤ o ∧ o ≤ high)
    (hunchanged : ∀ k ∈ z.changes.keys, k ≤ shown - high ∨ shown - low < k) :
    ∃ t, z.instantOf? shown = some t := by
  have hbounds := hoffsets _ (z.offsetAt_mem_offsets (shown - high))
  -- The offset in force at the first of them is in force at all of them.
  have hsame : z.offsetAt (shown - z.offsetAt (shown - high)) = z.offsetAt (shown - high) := by
    have hfloor := OrderedMap.floorValue?_eq_of_no_key (m := z.changes)
      (show shown - high ≤ shown - z.offsetAt (shown - high) by omega)
      fun k hlt hle => by
        rw [OrderedMap.get?_eq_none_iff]
        intro hk
        have := hunchanged k hk
        omega
    rw [offsetAt, hfloor, ← offsetAt]
  have hshown : z.localTime (shown - z.offsetAt (shown - high)) = shown := by
    rw [localTime, hsame]
    omega
  obtain ⟨m, hm, -⟩ := z.exists_instantOf?_le (shown - z.offsetAt (shown - high))
  exact ⟨m, hshown ▸ hm⟩

/-! ## Days -/

open Calendar

/-- A day starts when the clocks show midnight, or with the day in UTC if they do not. -/
theorem startOfDay_cases (z : Zone) (t : Int) :
    startOfDay z t + z.offsetAt (startOfDay z t) = dayNumber z t * daySeconds ∨
    (startOfDay z t = t - t % daySeconds ∧
      (hasDate t → timeOfDay? z (dayNumber z t) 0 = none)) := by
  by_cases hdate : hasDate t
  · cases hmidnight : timeOfDay? z (dayNumber z t) 0 with
    | none => exact .inr ⟨by rw [startOfDay, if_pos hdate, hmidnight]; rfl, fun _ => rfl⟩
    | some m =>
        have hstart : startOfDay z t = m := by
          rw [startOfDay, if_pos hdate, hmidnight]
          rfl
        rw [timeOfDay?] at hmidnight
        split at hmidnight
        · have hlocal := localTime_of_instantOf? hmidnight
          rw [localTime] at hlocal
          exact .inl (by rw [hstart, hlocal, Int.add_zero])
        · cases hmidnight
  · exact .inr ⟨by rw [startOfDay, if_neg hdate]; rfl, fun h => absurd h hdate⟩

/-- The next day starts at the next midnight that the clocks show, or after 24 hours. -/
theorem startOfNextDay_cases (z : Zone) (t : Int) :
    (hasDate t ∧ dayNumber z t + 1 ≤ lastInstant / daySeconds ∧
      startOfNextDay z t + z.offsetAt (startOfNextDay z t)
        = (dayNumber z t + 1) * daySeconds) ∨
    startOfNextDay z t = startOfDay z t + daySeconds := by
  by_cases hdate : hasDate t
  · cases hmidnight : timeOfDay? z (dayNumber z t + 1) 0 with
    | none => exact .inr (by rw [startOfNextDay, if_pos hdate, hmidnight]; rfl)
    | some m =>
        -- A midnight that is shown is found, if its date is not behind the last one.
        have hnext : startOfNextDay z t = m := by
          rw [startOfNextDay, if_pos hdate, hmidnight]
          rfl
        rw [timeOfDay?] at hmidnight
        split at hmidnight
        · rename_i hlast
          have hlocal := localTime_of_instantOf? hmidnight
          rw [localTime] at hlocal
          exact .inl ⟨hdate, hlast, by rw [hnext, hlocal, Int.add_zero]⟩
        · cases hmidnight
  · exact .inr (by rw [startOfNextDay, if_neg hdate]; rfl)

/-- Up to six hours behind UTC a day has at most 30 hours, even if its midnight is
    skipped. -/
theorem ordinary_of_behind (hoffsets : ∀ o ∈ z.offsets, -21600 ≤ o ∧ o ≤ 0) : z.Ordinary := by
  have hbounds := fun t => hoffsets _ (z.offsetAt_mem_offsets t)
  intro t
  -- The offsets at the instant, at the start of its day and at that of the next one.
  have hnow := hbounds t
  have hfirst := hbounds (startOfDay z t)
  have hnext := hbounds (startOfNextDay z t)
  have hstarts := startOfDay_cases z t
  have hends := startOfNextDay_cases z t
  constructor <;>
  · simp only [dayNumber, localTime, daySeconds, longestDay] at *
    omega

/-- Anywhere else a day has at most 30 hours if the clocks show the midnight at its start, as
    long as there are dates. -/
theorem ordinaryDay_of_shown (hspread : high - low ≤ 21600)
    (hoffsets : ∀ o ∈ z.offsets, low ≤ o ∧ o ≤ high) {t : Int}
    (hshown : hasDate t → dayNumber z t ≤ lastInstant / daySeconds →
      timeOfDay? z (dayNumber z t) 0 ≠ none) : z.OrdinaryDay t := by
  have hbounds := fun t => hoffsets _ (z.offsetAt_mem_offsets t)
  have hnow := hbounds t
  have hfirst := hbounds (startOfDay z t)
  have hnext := hbounds (startOfNextDay z t)
  have hends := startOfNextDay_cases z t
  rcases startOfDay_cases z t with hstarts | ⟨hstarts, hskipped⟩
  · constructor <;>
    · simp only [dayNumber, localTime, daySeconds, longestDay] at *
      omega
  · -- A day without midnight is one for which there are no dates any more.
    have hlast : hasDate t → ¬ dayNumber z t ≤ lastInstant / daySeconds :=
      fun hdate hle => hshown hdate hle (hskipped hdate)
    have hlength : startOfNextDay z t = startOfDay z t + daySeconds := by
      refine hends.resolve_left ?_
      rintro ⟨hdate, hle, -⟩
      have := hlast hdate
      omega
    constructor <;>
    · simp only [daySeconds, longestDay] at *
      omega

/-- So all of them are ordinary where the clocks are never set across midnight. -/
theorem ordinary_of_midnights (hspread : high - low ≤ 21600)
    (hoffsets : ∀ o ∈ z.offsets, low ≤ o ∧ o ≤ high)
    (hchanges : ∀ k ∈ z.changes.keys, (k + low - 1) / 86400 = (k + high - 1) / 86400) :
    z.Ordinary := by
  intro t
  refine ordinaryDay_of_shown hspread hoffsets fun _ hday => ?_
  obtain ⟨m, hm⟩ := exists_instantOf? (dayNumber z t * daySeconds + 0) hoffsets fun k hk => by
    have := hchanges k hk
    simp only [daySeconds]
    omega
  rw [timeOfDay?, if_pos hday, hm]
  exact Option.some_ne_none m

/-- Zones of the table in which every day is ordinary. -/
theorem ordinary_of_mem : ∀ z ∈ [utc, berlin, newYork, kolkata, saoPaulo, havana], z.Ordinary := by
  intro z hz
  simp only [List.mem_cons, List.not_mem_nil, or_false] at hz
  rcases hz with rfl | rfl | rfl | rfl | rfl | rfl
  · exact ordinary_of_behind (by decide)
  · exact ordinary_of_midnights (show (7200 : Int) - 3600 ≤ 21600 by decide)
      (forall_offsets (by decide) (by decide +kernel)) (by decide +kernel)
  · exact ordinary_of_behind (forall_offsets (by decide) (by decide +kernel))
  · exact ordinary_of_midnights (show (19800 : Int) - 19800 ≤ 21600 by decide)
      (by decide) (by decide)
  · exact ordinary_of_behind (forall_offsets (by decide) (by decide +kernel))
  · exact ordinary_of_behind (forall_offsets (by decide) (by decide +kernel))

-- The clocks of Kathmandu skipped the first midnight of 1986. The day in UTC that they fall
-- back on began when the day before had hardly begun there.
example : startOfNextDay kathmandu 504901800 - startOfDay kathmandu 504901800 = 152100 := by
  decide +kernel

end Zone
end SiteDispatch
