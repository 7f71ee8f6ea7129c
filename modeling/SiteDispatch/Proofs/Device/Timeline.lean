/-
  SiteDispatch.Proofs.Device.Timeline

  The timeline after a commit shows the committed profile.

  Committing clears a stretch of the timeline and writes a profile over it. Where a
  new profile was scheduled, the timeline shows it from its start on. Where a task
  was corrected, the timeline shows the corrected profile as far as it had shown the
  profile before; behind the correction that takes the value with which the
  correction ends to be the one that was in force there.
-/

import SiteDispatch.Proofs.Device.Commit

namespace SiteDispatch

open PowerProfile

/-! ## Clearing and writing -/

section Entries

variable {line : PowerTimeline} {profile : PowerProfile} {start stop : Int}
  {isEndMarker : Int → Bool}

theorem get?_clear (line : PowerTimeline) (start stop k : Int) :
    (PowerTimeline.clear line start stop).get? k
      = if start ≤ k ∧ k < stop then none else line.get? k := by
  have hkept : ∀ _ : Int, (!(start ≤ k && k < stop)) = true ↔ ¬ (start ≤ k ∧ k < stop) := by
    intro _
    simp only [Bool.not_eq_true', ← Bool.not_eq_true, Bool.and_eq_true, decide_eq_true_iff]
  rw [PowerTimeline.clear, OrderedMap.get?_filter_keys hkept, ite_not]

theorem get?_put (line : PowerTimeline) (marker : Bool) (time watts k : Int) :
    (PowerTimeline.put line marker time watts).get? k
      = if k = time then
          if marker then (line.get? k).or (some watts) else some watts
        else line.get? k := by
  rw [PowerTimeline.put]
  cases marker with
  | false => simp [OrderedMap.get?_insert]
  | true => simp [OrderedMap.get?_insertNew]

/-- Writing a profile puts each of its entries where it starts; nothing else is
    touched. -/
theorem get?_write (line : PowerTimeline) (start : Int) (profile : PowerProfile)
    (isEndMarker : Int → Bool) (j : Int) :
    (PowerTimeline.write line start profile isEndMarker).get? (start + j)
      = match profile.get? j with
        | none => line.get? (start + j)
        | some v => if isEndMarker j then (line.get? (start + j)).or (some v) else some v := by
  have hfold : ∀ (l : List (Int × Int)), l.Pairwise (fun a b => a.1 < b.1) →
      ∀ line : PowerTimeline,
      (l.foldl (fun line e => PowerTimeline.put line (isEndMarker e.1) (start + e.1) e.2) line).get?
          (start + j)
        = match (l.find? (fun e => e.1 = j)).map (·.2) with
          | none => line.get? (start + j)
          | some v => if isEndMarker j then (line.get? (start + j)).or (some v) else some v := by
    -- The timeline changes along the way, so the induction is for all of them.
    intro l
    induction l with
    | nil => exact fun _ _ => rfl
    | cons e rest ih =>
        intro hasc line
        obtain ⟨he, hrest⟩ := List.pairwise_cons.1 hasc
        rw [List.foldl_cons, ih hrest, get?_put]
        by_cases hj : e.1 = j
        · -- The keys that follow are greater.
          have hnone : rest.find? (fun e => e.1 = j) = none := by
            rw [List.find?_eq_none]
            intro x hx
            have := he x hx
            simp only [decide_eq_true_eq]
            omega
          rw [hnone, List.find?_cons_of_pos (by simpa using hj), if_pos (by omega), hj]
          rfl
        · rw [List.find?_cons_of_neg (by simpa using hj), if_neg (by omega)]
  exact hfold profile.entries profile.ascending line

theorem get?_write_of_none {k : Int} (h : profile.get? (k - start) = none) :
    (PowerTimeline.write line start profile isEndMarker).get? k = line.get? k := by
  have hk : start + (k - start) = k := by omega
  rw [← hk, get?_write, h]

theorem get?_write_of_some {j v : Int} (h : profile.get? j = some v)
    (hmarker : isEndMarker j = false) :
    (PowerTimeline.write line start profile isEndMarker).get? (start + j) = some v := by
  rw [get?_write, h]
  simp [hmarker]

end Entries

/-- A function that takes over the value of another at `k` and its entries from there
    on agrees with it. -/
theorem powerAt_splice {p q : PowerProfile} {d k t : Int} (hkt : k ≤ t)
    (hk : q.get? (d + k) = some (powerAt p k))
    (h : ∀ i, k < i → i ≤ t → q.get? (d + i) = p.get? i) :
    powerAt q (d + t) = powerAt p t := by
  by_cases hkey : ∃ i ∈ p.keys, k < i ∧ i ≤ t
  · -- From a later key on both have the same entries.
    obtain ⟨i, hi, hki, hit⟩ := hkey
    exact powerAt_shift hi hit fun j hij hjt => h j (by omega) hjt
  · -- Without one the value taken over at `k` is still in force.
    have hnone : ∀ i, k < i → i ≤ t → p.get? i = none := by
      intro i hki hit
      rw [OrderedMap.get?_eq_none_iff]
      exact fun hmem => hkey ⟨i, hmem, hki, hit⟩
    rw [powerAt_eq_of_no_key hkt hnone, ← powerAt_of_get? hk]
    refine powerAt_eq_of_no_key (by omega) fun j hj hjt => ?_
    have hshift := h (j - d) (by omega) (by omega)
    rw [hnone (j - d) (by omega) (by omega)] at hshift
    rw [← hshift]
    congr 1
    omega

/-- A function that has an entry wherever another one has, and whose entries are values of
    the other one, agrees with it. -/
theorem powerAt_sampled {p q : PowerProfile} {d k t : Int} (hkt : k ≤ t) (hk : d + k ∈ q.keys)
    (hkeys : ∀ i ∈ p.keys, k < i → i ≤ t → d + i ∈ q.keys)
    (hvalues : ∀ i v, k ≤ i → i ≤ t → q.get? (d + i) = some v → v = powerAt p i) :
    powerAt q (d + t) = powerAt p t := by
  obtain ⟨v, hv⟩ := OrderedMap.exists_floorValue?_of_key hk (show d + k ≤ d + t by omega)
  obtain ⟨j, hget, hjt, hnone⟩ := OrderedMap.floorValue?_eq_some_iff.1 hv
  -- The entry in force is not earlier than the one at `k`.
  have hkj : d + k ≤ j := by
    by_contra hlt
    have hget' := hnone (d + k) (by omega) (by omega)
    rw [OrderedMap.get?_eq_none_iff] at hget'
    exact hget' hk
  have hj : d + (j - d) = j := by omega
  have hvalue : v = powerAt p (j - d) := hvalues (j - d) v (by omega) (by omega) (by rw [hj, hget])
  have hsame : powerAt p t = powerAt p (j - d) := by
    refine powerAt_eq_of_no_key (by omega) fun i hji hit => ?_
    rw [OrderedMap.get?_eq_none_iff]
    intro hi
    have hmem := hkeys i hi (by omega) hit
    have hgone := hnone (d + i) (by omega) (by omega)
    rw [OrderedMap.get?_eq_none_iff] at hgone
    exact hgone hmem
  rw [hsame, ← hvalue, powerAt, hv]
  rfl

/-! ## A scheduled profile -/

section Scheduled

variable {line : PowerTimeline} {p : PowerProfile} {start last : Int}

/-- The timeline shows a scheduled profile from its start to its end. -/
theorem powerAt_scheduled (line : PowerTimeline) (start : Int) (hzero : 0 ∈ p.keys)
    (hlast : p.lastKey? = some last) {t : Int} (ht : 0 ≤ t) (htlast : t < last) :
    powerAt (PowerTimeline.write (PowerTimeline.clear line start (start + last)) start p
      fun offset => some offset = p.lastKey?) (start + t) = powerAt p t := by
  refine powerAt_shift hzero ht fun i hi hit => ?_
  cases hp : p.get? i with
  | some v =>
      refine get?_write_of_some hp (decide_eq_false ?_)
      rw [hlast, Option.some.injEq]
      omega
  | none =>
      rw [get?_write, hp]
      simp only [get?_clear]
      rw [if_pos (by omega)]

/-- A profile whose offsets are not negative writes nothing before its start. -/
theorem get?_write_of_lt (hkeys : ∀ k ∈ p.keys, 0 ≤ k) {k : Int} (hk : k < start)
    {isEndMarker : Int → Bool} :
    (PowerTimeline.write line start p isEndMarker).get? k = line.get? k := by
  apply get?_write_of_none
  rw [OrderedMap.get?_eq_none_iff]
  intro hmem
  have := hkeys _ hmem
  omega

/-- Before its start and before the window that is cleared nothing changes. -/
theorem powerAt_scheduled_of_lt (hkeys : ∀ k ∈ p.keys, 0 ≤ k) {a b t : Int} (ha : t < a)
    (ht : t < start) {isEndMarker : Int → Bool} :
    powerAt (PowerTimeline.write (PowerTimeline.clear line a b) start p isEndMarker) t
      = powerAt line t := by
  refine powerAt_congr fun i hi => ?_
  rw [get?_write_of_lt hkeys (by omega), get?_clear, if_neg (by omega)]

/-- Between the start of the window that is cleared and its own what was in force before goes
    on. -/
theorem powerAt_scheduled_of_gap (hkeys : ∀ k ∈ p.keys, 0 ≤ k) {a b t : Int} (ha : a ≤ t)
    (ht : t < start) (hb : t < b) {isEndMarker : Int → Bool} :
    powerAt (PowerTimeline.write (PowerTimeline.clear line a b) start p isEndMarker) t
      = powerAt line (a - 1) := by
  have hbefore : powerAt (PowerTimeline.write (PowerTimeline.clear line a b) start p isEndMarker)
      (a - 1) = powerAt line (a - 1) := powerAt_scheduled_of_lt hkeys (by omega) (by omega)
  rw [← hbefore]
  refine powerAt_eq_of_no_key (by omega) fun j hj hjt => ?_
  rw [get?_write_of_lt hkeys (by omega), get?_clear, if_pos (by omega)]

end Scheduled

/-! ## A corrected profile -/

section Corrected

open DeviceState (corrected correctedLine)

variable {line : PowerTimeline} {task : Task} {update : PowerProfile} {first last : Int}

/-- The entries of a correction: those of the update and the value in force at its
    end. -/
theorem get?_corrected_update (task : Task) (update : PowerProfile) (first last j : Int) :
    (corrected task update first last).1.get? j
      = if j = last then some (task.powerAt last) else update.get? j :=
  OrderedMap.get?_insert _ _ _ _

/-- A correction replaces the entries from its first to its last key. -/
theorem get?_corrected (task : Task) (update : PowerProfile) (first last j : Int) :
    (corrected task update first last).2.get? j
      = ((corrected task update first last).1.get? j).or
          (if j < first ∨ last < j then task.power.get? j else none) := by
  rw [corrected, OrderedMap.get?_override,
    OrderedMap.get?_filter_keys (q := j < first ∨ last < j) (by simp)]

/-- The value that returns at the end of a correction is the last one of the corrected profile if
    that ends there. -/
theorem powerAt_last_of_lastEntry? {watts : Int}
    (h : OrderedMap.lastEntry? (corrected task update first last).2 = some (last, watts)) :
    task.powerAt last = watts := by
  obtain ⟨hget, -⟩ := OrderedMap.lastEntry?_eq_some_iff.1 h
  rw [get?_corrected, get?_corrected_update, if_pos rfl] at hget
  exact Option.some.inj hget

/-- A correction does not go on behind the end of the corrected profile. -/
theorem last_le_of_lastEntry? {stop watts : Int}
    (h : OrderedMap.lastEntry? (corrected task update first last).2 = some (stop, watts)) :
    last ≤ stop := by
  have hkey : last ∈ (corrected task update first last).2.keys := by
    rw [OrderedMap.mem_keys_iff_get?, get?_corrected, get?_corrected_update, if_pos rfl]
    exact ⟨task.powerAt last, rfl⟩
  exact Int.not_lt.1 ((OrderedMap.lastEntry?_eq_some_iff.1 h).2 last hkey)

/-- The keys of a correction lie between its first and its last one. -/
theorem get?_corrected_update_eq_none (hfirst : update.firstKey? = some first)
    (hlast : update.lastKey? = some last) {j : Int} (hj : j < first ∨ last < j) :
    (corrected task update first last).1.get? j = none := by
  obtain ⟨hmem, hmax⟩ := OrderedMap.lastKey?_eq_some_iff.1 hlast
  obtain ⟨-, hmin⟩ := OrderedMap.firstKey?_eq_some_iff.1 hfirst
  have hle := hmin last hmem
  rw [get?_corrected_update, if_neg (by omega), OrderedMap.get?_eq_none_iff]
  intro hkey
  have := hmin j hkey
  have := hmax j hkey
  omega

theorem powerAt_corrected_of_last_le (hlast : update.lastKey? = some last)
    (hfirst : update.firstKey? = some first) {t : Int} (ht : last ≤ t) :
    powerAt (corrected task update first last).2 t = powerAt task.power t := by
  have hsplice := powerAt_splice (p := task.power) (q := (corrected task update first last).2)
    (d := 0) ht
  simp only [Int.zero_add] at hsplice
  refine hsplice ?_ fun i hi _ => ?_
  · rw [get?_corrected, get?_corrected_update, if_pos rfl]
    rfl
  · rw [get?_corrected, get?_corrected_update_eq_none hfirst hlast (.inr hi), Option.none_or,
      if_pos (.inr hi)]

theorem powerAt_corrected_of_lt_first (hlast : update.lastKey? = some last)
    (hfirst : update.firstKey? = some first) {t : Int} (ht : t < first) :
    powerAt (corrected task update first last).2 t = powerAt task.power t := by
  refine powerAt_congr fun i hi => ?_
  rw [get?_corrected, get?_corrected_update_eq_none hfirst hlast (.inl (by omega)),
    Option.none_or, if_pos (.inl (by omega))]

/-- Up to its last key a correction is the update. -/
theorem powerAt_corrected_of_inside (hfirst : update.firstKey? = some first) {t : Int}
    (ht : first ≤ t) (htlast : t < last) :
    powerAt (corrected task update first last).2 t = powerAt update t := by
  obtain ⟨hmem, -⟩ := OrderedMap.firstKey?_eq_some_iff.1 hfirst
  rw [powerAt, powerAt, OrderedMap.floorValue?_congr_from hmem ht]
  intro j hj hjt
  rw [get?_corrected, if_neg (by omega), Option.or_none, get?_corrected_update,
    if_neg (by omega)]

/-- Outside the correction the entries of the timeline stay. -/
theorem get?_correctedLine_of_outside (hfirst : update.firstKey? = some first)
    (hlast : update.lastKey? = some last) {k : Int}
    (hk : k < task.startingTime + first ∨ task.startingTime + last < k) :
    (correctedLine line task update first last).get? k = line.get? k := by
  have hnone : (corrected task update first last).1.get? (k - task.startingTime) = none :=
    get?_corrected_update_eq_none hfirst hlast (by omega)
  rw [correctedLine, get?_write_of_none hnone, get?_clear, if_neg (by omega)]

/-- Inside it they are those of the corrected task. -/
theorem get?_correctedLine_of_inside {j : Int} (hj : first ≤ j) (hjlast : j < last) :
    (correctedLine line task update first last).get? (task.startingTime + j)
      = (corrected task update first last).2.get? j := by
  -- Everything there has been cleared, so that no entry gives way.
  have hcleared : (PowerTimeline.clear line (task.startingTime + first)
      (task.startingTime + last)).get? (task.startingTime + j) = none := by
    rw [get?_clear, if_pos (by omega)]
  rw [get?_corrected, if_neg (by omega), Option.or_none, correctedLine, get?_write, hcleared]
  cases (corrected task update first last).1.get? j with
  | some v => exact ite_self _
  | none => rfl

/-- Inside a correction timeline and task show the same. -/
theorem powerAt_correctedLine_of_inside (hfirst : update.firstKey? = some first) {t : Int}
    (ht : first ≤ t) (htlast : t < last) :
    powerAt (correctedLine line task update first last) (task.startingTime + t)
      = powerAt (corrected task update first last).2 t := by
  obtain ⟨hmem, -⟩ := OrderedMap.firstKey?_eq_some_iff.1 hfirst
  obtain ⟨v, hv⟩ := OrderedMap.mem_keys_iff_get?.1 hmem
  have hkey : first ∈ (corrected task update first last).2.keys := by
    rw [OrderedMap.mem_keys_iff_get?, get?_corrected, get?_corrected_update,
      if_neg (by omega), hv]
    exact ⟨v, rfl⟩
  apply powerAt_shift hkey ht
  intro i hi hit
  exact get?_correctedLine_of_inside hi (by omega)

/-- Behind a correction a timeline that shows the task at its end goes on as before. -/
theorem powerAt_correctedLine_of_last_le (hfirst : update.firstKey? = some first)
    (hlast : update.lastKey? = some last)
    (hvalue : powerAt line (task.startingTime + last) = task.powerAt last) {t : Int}
    (ht : last ≤ t) (hstop : task.startingTime + t < task.stop) :
    powerAt (correctedLine line task update first last) (task.startingTime + t)
      = powerAt line (task.startingTime + t) := by
  have hsplice := powerAt_splice (p := line) (q := correctedLine line task update first last)
    (d := 0) (k := task.startingTime + last) (t := task.startingTime + t) (by omega)
  simp only [Int.zero_add] at hsplice
  apply hsplice
  · rw [hvalue]
    refine get?_write_of_some ?_ (decide_eq_false (by omega))
    rw [get?_corrected_update, if_pos rfl]
  · intro i hi _
    exact get?_correctedLine_of_outside hfirst hlast (.inr hi)

/-- As far as a timeline shows a task, it shows the corrected task after a correction.
    If the correction ends before, the timeline must have shown the task at that
    instant, too. -/
theorem powerAt_adapted {now : Int}
    (hfirst : update.firstKey? = some first) (hlast : update.lastKey? = some last)
    (hagree : ∀ t, now ≤ t → t < task.stop →
      powerAt line t = powerAt task.power (t - task.startingTime))
    (hend : task.startingTime + last < now →
      powerAt line (task.startingTime + last) = powerAt task.power last)
    {t : Int} (hnow : now ≤ task.startingTime + t) (hstop : task.startingTime + t < task.stop) :
    powerAt (correctedLine line task update first last) (task.startingTime + t)
      = powerAt (corrected task update first last).2 t := by
  have hshown : ∀ u, now ≤ task.startingTime + u → task.startingTime + u < task.stop →
      powerAt line (task.startingTime + u) = powerAt task.power u := by
    intro u hu hustop
    rw [hagree _ hu hustop]
    congr 1
    omega
  rcases lt_or_ge t first with hbefore | hfrom
  · -- Before the correction neither changes.
    rw [powerAt_corrected_of_lt_first hlast hfirst hbefore, ← hshown t hnow hstop]
    apply powerAt_congr
    intro i hi
    exact get?_correctedLine_of_outside hfirst hlast (.inl (by omega))
  · rcases lt_or_ge t last with hinside | hbehind
    · exact powerAt_correctedLine_of_inside hfirst hfrom hinside
    · -- Behind it both go on as before.
      have hvalue : powerAt line (task.startingTime + last) = task.powerAt last := by
        by_cases hearly : task.startingTime + last < now
        · exact hend hearly
        · exact hshown last (by omega) (by omega)
      rw [powerAt_corrected_of_last_le hlast hfirst hbehind, ← hshown t hnow hstop]
      exact powerAt_correctedLine_of_last_le hfirst hlast hvalue hbehind hstop

end Corrected

end SiteDispatch
