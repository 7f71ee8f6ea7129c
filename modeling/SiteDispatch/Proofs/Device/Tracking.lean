/-
  SiteDispatch.Proofs.Device.Tracking

  A task and its part of the timeline.

  The timeline has every breakpoint of a task, and usually more, because a profile is compressed.
  It either shows the task at every second or, more weakly, follows it: where it does not show
  the task, the task rests. Three things can happen to the two. Something else changes on the
  timeline, a correction is written into both, or the same breakpoints of both are set to rest.
-/

import SiteDispatch.Proofs.Device.Frame

namespace SiteDispatch

open PowerProfile

/-! ## A task on the timeline -/

namespace PowerTimeline

/-- Every breakpoint of a task is one of the timeline. -/
structure Marks (line : PowerTimeline) (t : Task) : Prop where
  zero : 0 ∈ t.power.keys
  keys : ∀ i ∈ t.power.keys, 0 ≤ i → i < t.runningTime → t.startingTime + i ∈ line.keys

/-- Where the timeline does not show a task, the task rests. -/
def Follows (line : PowerTimeline) (t : Task) : Prop :=
  ∀ i, 0 ≤ i → i < t.runningTime →
    powerAt line (t.startingTime + i) = t.powerAt i ∨ t.powerAt i = 0

/-- The timeline shows a task as long as it runs. -/
def Shows (line : PowerTimeline) (t : Task) : Prop :=
  ∀ i, 0 ≤ i → i < t.runningTime → powerAt line (t.startingTime + i) = t.powerAt i

/-- The timeline has not changed where a task is running. -/
def SameAlong (line line' : PowerTimeline) (t : Task) : Prop :=
  ∀ i, 0 ≤ i → i < t.runningTime →
    line'.get? (t.startingTime + i) = line.get? (t.startingTime + i)

/-- Of a task and its part of the timeline the same breakpoints have been set to 0 W, and
    nothing else has changed. -/
structure RestsWith (line line' : PowerTimeline) (t t' : Task) : Prop where
  start : t'.startingTime = t.startingTime
  length : t'.runningTime = t.runningTime
  entries : ∀ i, 0 ≤ i → i < t.runningTime →
    (t'.power.get? i = some 0 ∧ line'.get? (t.startingTime + i) = some 0) ∨
      (t'.power.get? i = t.power.get? i ∧
        line'.get? (t.startingTime + i) = line.get? (t.startingTime + i))

/-- Nothing has changed but that breakpoints have been set to 0 W. -/
def OnlyRests (line line' : PowerTimeline) : Prop :=
  ∀ j, line'.get? j = some 0 ∨ line'.get? j = line.get? j

/-- While a task runs, a repair that lets the timeline go on with the power that it had has
    not set it to rest just before. -/
def RestsWholeStretches (line line' : PowerTimeline) (t : Task) : Prop :=
  ∀ i, 0 ≤ i → i + 1 < t.runningTime →
    powerAt line (t.startingTime + (i + 1)) = powerAt line (t.startingTime + i) →
    powerAt line' (t.startingTime + (i + 1)) = powerAt line (t.startingTime + (i + 1)) →
    powerAt line' (t.startingTime + i) = powerAt line (t.startingTime + i)

section

variable {line line' : PowerTimeline} {t t' : Task} {i : Int}

/-! ### The shortest form of a task -/

theorem Marks.compress (h : line.Marks t) : line.Marks t.compress where
  zero := zero_mem_keys_compress h.zero
  keys i hi := h.keys i (mem_keys_of_compress hi)

theorem Follows.compress (h : line.Follows t) : line.Follows t.compress := by
  intro i h0 hi
  simpa only [Task.powerAt, Task.compress, powerAt_compress] using h i h0 hi

theorem Shows.compress (h : line.Shows t) : line.Shows t.compress := by
  intro i h0 hi
  simpa only [Task.powerAt, Task.compress, powerAt_compress] using h i h0 hi

/-! ### Another part of the timeline -/

theorem SameAlong.marks (h : line.SameAlong line' t) (hmarks : line.Marks t) : line'.Marks t where
  zero := hmarks.zero
  keys i hi h0 hlast := by
    rw [OrderedMap.mem_keys_iff_get?, h i h0 hlast, ← OrderedMap.mem_keys_iff_get?]
    exact hmarks.keys i hi h0 hlast

theorem SameAlong.powerAt_eq (h : line.SameAlong line' t) (hmarks : line.Marks t) (h0 : 0 ≤ i)
    (hi : i < t.runningTime) :
    powerAt line' (t.startingTime + i) = powerAt line (t.startingTime + i) := by
  have hstart := hmarks.keys 0 hmarks.zero (Int.le_refl 0) (by omega)
  rw [Int.add_zero] at hstart
  rw [powerAt, powerAt, OrderedMap.floorValue?_congr_from hstart (by omega)]
  intro j hj hji
  have hsame := h (j - t.startingTime) (by omega) (by omega)
  have hj' : t.startingTime + (j - t.startingTime) = j := by omega
  rwa [hj'] at hsame

theorem SameAlong.follows (h : line.SameAlong line' t) (hmarks : line.Marks t)
    (hfollows : line.Follows t) : line'.Follows t := by
  intro i h0 hi
  rw [h.powerAt_eq hmarks h0 hi]
  exact hfollows i h0 hi

theorem SameAlong.shows (h : line.SameAlong line' t) (hmarks : line.Marks t)
    (hshows : line.Shows t) : line'.Shows t := by
  intro i h0 hi
  rw [h.powerAt_eq hmarks h0 hi]
  exact hshows i h0 hi

/-! ### Breakpoints at rest -/

theorem OnlyRests.rest (h : line.OnlyRests line') (time : Int) :
    line.OnlyRests (line'.insert time 0) := by
  intro j
  rw [OrderedMap.get?_insert]
  split
  · exact .inl rfl
  · exact h j

theorem OnlyRests.powerAt (h : line.OnlyRests line') (time : Int) :
    PowerProfile.powerAt line' time = 0 ∨
      PowerProfile.powerAt line' time = PowerProfile.powerAt line time := by
  by_cases hpast : ∃ k ∈ line'.keys, k ≤ time
  · obtain ⟨k, hk, hkt⟩ := hpast
    obtain ⟨j, -, hjt, hget, hnone⟩ := exists_entry hk hkt
    rcases h j with hrest | hsame
    · left
      rw [hget, Option.some.injEq] at hrest
      exact hrest
    · right
      rw [hget] at hsame
      rw [← powerAt_of_get? hsame.symm]
      refine (powerAt_eq_of_no_key hjt fun i hi hit => ?_).symm
      rcases h i with hrest | hline
      · rw [hnone i hi hit] at hrest
        cases hrest
      · rw [← hline, hnone i hi hit]
  · -- Without a breakpoint so far the timeline is at rest.
    left
    exact powerAt_eq_zero_of_lt fun k hk => Int.not_le.1 fun hkt => hpast ⟨k, hk, hkt⟩

/-- Only breakpoints of the timeline have to be looked at. -/
theorem OnlyRests.restsWholeStretches (h : line.OnlyRests line')
    (hkeys : ∀ j ∈ line.keys, t.startingTime < j → j < t.stop →
      PowerProfile.powerAt line j = PowerProfile.powerAt line (j - 1) →
      PowerProfile.powerAt line' j = PowerProfile.powerAt line j →
      PowerProfile.powerAt line' (j - 1) = PowerProfile.powerAt line (j - 1)) :
    line.RestsWholeStretches line' t := by
  intro i h0 hi hsame hstay
  have hprevious : t.startingTime + (i + 1) - 1 = t.startingTime + i := by omega
  by_cases hkey : t.startingTime + (i + 1) ∈ line.keys
  · have hcase := hkeys _ hkey (by omega) (by rw [Task.stop]; omega)
    rw [hprevious] at hcase
    exact hcase hsame hstay
  · rcases h (t.startingTime + (i + 1)) with hrest | hline
    · -- A breakpoint is new where the timeline is at rest before and after.
      have hzero : PowerProfile.powerAt line (t.startingTime + i) = 0 := by
        rw [← hsame, ← hstay]
        exact powerAt_of_get? hrest
      rcases h.powerAt (t.startingTime + i) with hrests | hkept
      · rw [hrests, hzero]
      · exact hkept
    · rw [OrderedMap.get?_eq_none_iff.2 hkey] at hline
      rw [← hsame, ← hstay]
      refine (powerAt_eq_of_no_key (by omega) fun j hj hji => ?_).symm
      obtain rfl : j = t.startingTime + (i + 1) := by omega
      exact hline

theorem RestsWith.marks (h : line.RestsWith line' t t') (hmarks : line.Marks t)
    (hlasting : 0 < t.runningTime) : line'.Marks t' := by
  constructor
  · rw [OrderedMap.mem_keys_iff_get?]
    rcases h.entries 0 (Int.le_refl 0) hlasting with ⟨hrest, -⟩ | ⟨hsame, -⟩
    · exact ⟨0, hrest⟩
    · rw [hsame]
      exact OrderedMap.mem_keys_iff_get?.1 hmarks.zero
  · intro i hi h0 hilast
    rw [h.length] at hilast
    rw [h.start, OrderedMap.mem_keys_iff_get?]
    rcases h.entries i h0 hilast with ⟨-, hrest⟩ | ⟨hsame, hline⟩
    · exact ⟨0, hrest⟩
    · rw [OrderedMap.mem_keys_iff_get?, hsame, ← OrderedMap.mem_keys_iff_get?] at hi
      rw [hline, ← OrderedMap.mem_keys_iff_get?]
      exact hmarks.keys i hi h0 hilast

/-- The timeline goes on as before or is at rest, and then the task is. -/
theorem RestsWith.line_cases (h : line.RestsWith line' t t') (hmarks : line.Marks t)
    (h0 : 0 ≤ i) (hi : i < t.runningTime) :
    powerAt line' (t.startingTime + i) = powerAt line (t.startingTime + i) ∨
      (powerAt line' (t.startingTime + i) = 0 ∧ t'.powerAt i = 0) := by
  have hmarks' := h.marks hmarks (by omega)
  have hstart : t.startingTime ∈ line'.keys := by
    have := hmarks'.keys 0 hmarks'.zero (Int.le_refl 0) (by rw [h.length]; omega)
    rwa [h.start, Int.add_zero] at this
  obtain ⟨j, hj, hji, hget, hnone⟩ := exists_entry hstart (show _ ≤ t.startingTime + i by omega)
  have hoffset : t.startingTime + (j - t.startingTime) = j := by omega
  rcases h.entries (j - t.startingTime) (by omega) (by omega) with ⟨htask, hrest⟩ | ⟨-, hsame⟩
  · -- The breakpoint is at rest on both sides, and the task has none after it.
    right
    rw [hoffset, hget, Option.some.injEq] at hrest
    refine ⟨hrest, ?_⟩
    rw [Task.powerAt, ← powerAt_of_get? htask]
    refine powerAt_eq_of_no_key (by omega) fun k hk hki => ?_
    rw [OrderedMap.get?_eq_none_iff]
    intro hmem
    have hmem' := hmarks'.keys k hmem (by omega) (by rw [h.length]; omega)
    rw [h.start] at hmem'
    have hgone := hnone (t.startingTime + k) (by omega) (by omega)
    rw [OrderedMap.get?_eq_none_iff] at hgone
    exact hgone hmem'
  · left
    rw [hoffset, hget] at hsame
    rw [← powerAt_of_get? hsame.symm, powerAt_eq_of_no_key hji fun k hk hki => ?_]
    have hk' : t.startingTime + (k - t.startingTime) = k := by omega
    rcases h.entries (k - t.startingTime) (by omega) (by omega) with ⟨-, hrest⟩ | ⟨-, hline⟩
    · rw [hk', hnone k hk hki] at hrest
      cases hrest
    · rw [hk', hnone k hk hki] at hline
      exact hline.symm

/-- The task goes on as before, or it rests since a breakpoint at which the timeline is at rest
    as well, and it had none of its own since. -/
theorem RestsWith.task_cases (h : line.RestsWith line' t t') (hmarks : line.Marks t)
    (h0 : 0 ≤ i) (hi : i < t.runningTime) :
    t'.powerAt i = t.powerAt i ∨
      (t'.powerAt i = 0 ∧ ∃ r, 0 ≤ r ∧ r ≤ i ∧ powerAt line' (t.startingTime + r) = 0 ∧
        ∀ u, r ≤ u → u ≤ i → t.powerAt u = t.powerAt i) := by
  obtain ⟨r, hr, hri, hget, hnone⟩ := exists_entry (h.marks hmarks (by omega)).zero h0
  -- A breakpoint that the task had after `r` would still be one, at rest or not.
  have hnone' : ∀ j, r < j → j ≤ i → t.power.get? j = none := by
    intro j hj hji
    rcases h.entries j (by omega) (by omega) with ⟨hrest, -⟩ | ⟨hsame, -⟩
    · rw [hnone j hj hji] at hrest
      cases hrest
    · rw [← hsame, hnone j hj hji]
  have hconst : ∀ u, r ≤ u → u ≤ i → t.powerAt u = t.powerAt r := fun u hu hui =>
    powerAt_eq_of_no_key hu fun j hj hju => hnone' j hj (by omega)
  rcases h.entries r hr (by omega) with ⟨hrest, hline⟩ | ⟨hsame, -⟩
  · right
    rw [hget, Option.some.injEq] at hrest
    refine ⟨hrest, r, hr, hri, powerAt_of_get? hline, fun u hu hui => ?_⟩
    rw [hconst u hu hui, hconst i hri (Int.le_refl i)]
  · left
    rw [hget] at hsame
    rw [hconst i hri (Int.le_refl i), Task.powerAt, Task.powerAt, powerAt_of_get? hsame.symm]

theorem RestsWith.follows (h : line.RestsWith line' t t') (hmarks : line.Marks t)
    (hfollows : line.Follows t) : line'.Follows t' := by
  intro i h0 hi
  rw [h.length] at hi
  rw [h.start]
  rcases h.task_cases hmarks h0 hi with htask | ⟨htask, -⟩
  · rcases h.line_cases hmarks h0 hi with hline | ⟨hline, hrest⟩
    · rw [hline, htask]
      exact hfollows i h0 hi
    · exact .inr hrest
  · exact .inr htask

/-- If whole stretches have been set to rest, the timeline still shows the task. -/
theorem RestsWith.shows (h : line.RestsWith line' t t') (hmarks : line.Marks t)
    (hshows : line.Shows t) (hwhole : line.RestsWholeStretches line' t) : line'.Shows t' := by
  intro i h0 hi
  rw [h.length] at hi
  rw [h.start]
  rcases h.line_cases hmarks h0 hi with hline | ⟨hline, hrest⟩
  · rcases h.task_cases hmarks h0 hi with htask | ⟨htask, r, hr, hri, hstop, hconst⟩
    · rw [hline, htask]
      exact hshows i h0 hi
    · -- The task rests since `r`. If it had been running, so would the timeline from `r` on.
      rw [htask, hline, hshows i h0 hi]
      by_contra hruns
      have hbefore : ∀ u, r ≤ u → u ≤ i → powerAt line (t.startingTime + u) = t.powerAt i := by
        intro u hu hui
        rw [hshows u (by omega) (by omega), hconst u hu hui]
      -- By induction from `r` on, as rest that ends inside the stretch would not be whole.
      have hrests : ∀ n : Nat, r + n ≤ i →
          powerAt line' (t.startingTime + (r + n)) ≠ t.powerAt i := by
        intro n
        induction n with
        | zero =>
            intro _
            simp only [Nat.cast_zero, Int.add_zero, hstop]
            exact Ne.symm hruns
        | succ n ih =>
            intro hle heq
            push_cast at hle heq
            have hstretch := hwhole (r + n) (by omega) (by omega)
            rw [Int.add_assoc] at hstretch
            rw [hbefore (r + n) (by omega) (by omega), hbefore (r + (n + 1)) (by omega) (by omega)]
              at hstretch
            exact ih (by omega) (hstretch rfl heq)
      have hlast := hrests (i - r).toNat (by omega)
      have hi' : r + ((i - r).toNat : Int) = i := by omega
      rw [hi', hline, hshows i h0 hi] at hlast
      exact hlast rfl
  · rw [hline, hrest]

/-! ### Corrections -/

section Corrected

variable {update : PowerProfile} {first last : Int}

theorem mem_keys_correctedLine_of_update (task : Task) {j v : Int}
    (hj : (DeviceState.corrected task update first last).1.get? j = some v) :
    task.startingTime + j ∈ (DeviceState.correctedLine line task update first last).keys := by
  rw [OrderedMap.mem_keys_iff_get?, DeviceState.correctedLine, get?_write, hj]
  simp only
  split
  · cases (clear line (task.startingTime + first) (task.startingTime + last)).get?
      (task.startingTime + j) with
    | none => exact ⟨v, rfl⟩
    | some w => exact ⟨w, rfl⟩
  · exact ⟨v, rfl⟩

theorem Marks.corrected (h : line.Marks t) (hfirst : update.firstKey? = some first)
    (hlast : update.lastKey? = some last)
    (hzero : 0 ∈ (DeviceState.corrected t update first last).2.keys) :
    Marks (DeviceState.correctedLine line t update first last)
      { t with power := (DeviceState.corrected t update first last).2 } where
  zero := hzero
  keys i hi h0 hilast := by
    show t.startingTime + i ∈ (DeviceState.correctedLine line t update first last).keys
    obtain ⟨v, hv⟩ := OrderedMap.mem_keys_iff_get?.1 hi
    rw [get?_corrected] at hv
    -- A key of the corrected profile is one of the update or an old one outside.
    cases hupdate : (DeviceState.corrected t update first last).1.get? i with
    | some w => exact mem_keys_correctedLine_of_update t hupdate
    | none =>
        rw [hupdate, Option.none_or] at hv
        split at hv
        · rename_i hout
          rw [OrderedMap.mem_keys_iff_get?,
            get?_correctedLine_of_outside hfirst hlast (by omega), ← OrderedMap.mem_keys_iff_get?]
          exact h.keys i (OrderedMap.mem_keys_iff_get?.2 ⟨v, hv⟩) h0 hilast
        · cases hv

/-- As long as nothing is set behind a correction, the timeline and the task go on with the value
    with which it ends. -/
theorem Marks.powerAt_behind_corrected (h : line.Marks t) (hfirst : update.firstKey? = some first)
    (hlast : update.lastKey? = some last) (hlast0 : 0 ≤ last) {i : Int} (hbehind : last ≤ i)
    (hi : i < t.runningTime)
    (hunset : ¬ line.SetBetween (t.startingTime + last + 1) (t.startingTime + i)) :
    powerAt (DeviceState.correctedLine line t update first last) (t.startingTime + i)
      = t.powerAt i := by
  have hstop : t.startingTime + i < t.stop := by
    rw [Task.stop]
    omega
  have hnone : ∀ j, t.startingTime + last < j → j ≤ t.startingTime + i → line.get? j = none :=
    fun j hj hji => OrderedMap.get?_eq_none_iff.2 fun hmem => hunset ⟨j, hmem, by omega, hji⟩
  have hend := get?_correctedLine_last line update first
    (show t.startingTime + last < t.stop by omega)
  have hline : powerAt (DeviceState.correctedLine line t update first last) (t.startingTime + i)
      = t.powerAt last := by
    rw [← powerAt_of_get? hend]
    apply powerAt_eq_of_no_key (Int.add_le_add_left hbehind _)
    intro j hj hji
    rw [get?_correctedLine_of_outside hfirst hlast (.inr hj), hnone j hj hji]
  -- A breakpoint of the task would be one of the timeline.
  have htask : t.powerAt i = t.powerAt last := by
    refine powerAt_eq_of_no_key hbehind fun j hj hji => ?_
    rw [OrderedMap.get?_eq_none_iff]
    intro hmem
    have hmarked := h.keys j hmem (by omega) (by omega)
    have hgone := hnone (t.startingTime + j) (by omega) (by omega)
    rw [OrderedMap.get?_eq_none_iff] at hgone
    exact hgone hmarked
  rw [hline, htask]

/-- A correction is followed, and behind it the timeline is as far from the task as before. -/
theorem Follows.corrected (h : line.Follows t) (hmarks : line.Marks t)
    (hfirst : update.firstKey? = some first) (hlast : update.lastKey? = some last)
    (hlast0 : 0 ≤ last) :
    Follows (DeviceState.correctedLine line t update first last)
      { t with power := (DeviceState.corrected t update first last).2 } := by
  intro i h0 hi
  have hi : i < t.runningTime := hi
  show powerAt (DeviceState.correctedLine line t update first last) (t.startingTime + i)
      = powerAt (DeviceState.corrected t update first last).2 i ∨
    powerAt (DeviceState.corrected t update first last).2 i = 0
  rcases lt_or_ge i first with hbefore | hfrom
  · -- Before the correction neither changes.
    have hline : powerAt (DeviceState.correctedLine line t update first last) (t.startingTime + i)
        = powerAt line (t.startingTime + i) := by
      apply powerAt_congr
      intro j hj
      exact get?_correctedLine_of_outside hfirst hlast (.inl (by omega))
    rw [powerAt_corrected_of_lt_first hlast hfirst hbefore, hline]
    exact h i h0 hi
  · rcases lt_or_ge i last with hinside | hbehind
    · exact .inl (powerAt_correctedLine_of_inside hfirst hfrom hinside)
    · rw [powerAt_corrected_of_last_le hlast hfirst hbehind]
      by_cases hset : line.SetBetween (t.startingTime + last + 1) (t.startingTime + i)
      · -- From a breakpoint behind the correction on the timeline is the old one.
        obtain ⟨k, hk, hlastk, hki⟩ := hset
        have hsame : powerAt (DeviceState.correctedLine line t update first last)
            (t.startingTime + i) = powerAt line (t.startingTime + i) := by
          rw [powerAt, powerAt, OrderedMap.floorValue?_congr_from hk hki]
          exact fun j hj _ => get?_correctedLine_of_outside hfirst hlast (.inr (by omega))
        rw [hsame]
        exact h i h0 hi
      · exact .inl (hmarks.powerAt_behind_corrected hfirst hlast hlast0 hbehind hi hset)

theorem Shows.corrected (h : line.Shows t) (hfirst : update.firstKey? = some first)
    (hlast : update.lastKey? = some last) (hlast0 : 0 ≤ last) :
    Shows (DeviceState.correctedLine line t update first last)
      { t with power := (DeviceState.corrected t update first last).2 } := by
  intro i h0 hi
  have hi : i < t.runningTime := hi
  have hagree : ∀ u, t.startingTime ≤ u → u < t.stop →
      powerAt line u = powerAt t.power (u - t.startingTime) := by
    intro u hu hustop
    have hshown := h (u - t.startingTime) (by omega) (by rw [Task.stop] at hustop; omega)
    have hback : t.startingTime + (u - t.startingTime) = u := by omega
    rwa [hback] at hshown
  refine powerAt_adapted hfirst hlast hagree (fun hearly => absurd hearly (by omega))
    (Int.le_add_of_nonneg_right h0) ?_
  rw [Task.stop]
  omega

end Corrected

end

end PowerTimeline

end SiteDispatch
