/-
  SiteDispatch.Proofs.Adaptation.Measurement

  A measurement changes nothing but a valid window of every running task.

  The window begins at the present offset and ends at the boundary, and of the entries of the
  corrected profile exactly these two are new: everything else in it is gone, and under the
  boundary the value returns that was in force there. Whether the window is changed at all is up
  to the validity gate. A round with sound entries is always answered, and its counts are those of
  the tasks that it has come across.
-/

import SiteDispatch.Proofs.Adaptation.Agreement

namespace SiteDispatch

open PowerProfile

/-! ## The window of a correction -/

namespace AdaptableEntry

/-- What planning and devices leave in an entry: corridors that are not crossed, a profile that
    ends with its task, and a running time of the narrow range. -/
structure Sound (entry : AdaptableEntry) : Prop where
  ordered : ∀ bound ∈ entry.flexibility.powerCorridor.values, bound.low ≤ bound.high
  ends : entry.task.power.lastKey? = some entry.task.runningTime
  narrow : entry.task.runningTime ≤ Quantity.greatest

/-- `c` corrects the entry from `offset` to `boundary`: the new profile is valid, runs at one power
    of the corridor in between and as before elsewhere, and what is sent of it are its entries
    under `offset` and `boundary`. -/
structure Adjusted (entry : AdaptableEntry) (offset boundary : Int) (c : Confirmation) : Prop where
  nonempty : offset < boundary
  valid : entry.flexibility.validate entry.task.startingTime c.adapted = .ok ()
  outside : ∀ t, t < offset ∨ boundary ≤ t → powerAt c.adapted t = powerAt entry.task.power t
  inside : ∃ watts bound, (∀ t, offset ≤ t → t < boundary → powerAt c.adapted t = watts) ∧
    entry.flexibility.powerCorridor.floorValue? offset = some bound ∧ bound.contains watts
  sent : ∃ watts restored, c.adapted.get? offset = some watts ∧
    c.adapted.get? boundary = some restored ∧
    c.update.entries = [(offset, watts), (boundary, restored)]

variable {entry : AdaptableEntry} {key : AdaptableKey} {share : Float}
  {now horizon offset boundary power : Int} {c : Confirmation}

theorem get?_corrected_boundary (entry : AdaptableEntry) (power offset boundary : Int) :
    (entry.corrected power offset boundary).get? boundary
      = some (powerAt entry.task.power boundary) := by
  rw [corrected, OrderedMap.get?_insert_self]

theorem get?_corrected_offset (hlt : offset < boundary) :
    (entry.corrected power offset boundary).get? offset = some power := by
  rw [corrected, OrderedMap.get?_insert_of_ne (by omega), OrderedMap.get?_insert_self]

/-- Between offset and boundary no entry is left. -/
theorem get?_corrected_between {k : Int} (hk : offset < k) (hkb : k < boundary) :
    (entry.corrected power offset boundary).get? k = none := by
  rw [corrected, OrderedMap.get?_insert_of_ne (by omega), OrderedMap.get?_insert_of_ne (by omega),
    opened, OrderedMap.get?_filter_keys (q := k < offset ∨ boundary < k) (by simp),
    if_neg (by omega)]

theorem powerAt_corrected_inside {t : Int} (hot : offset ≤ t) (htb : t < boundary) :
    powerAt (entry.corrected power offset boundary) t = power := by
  rw [powerAt_eq_of_no_key hot fun k hk hkt => get?_corrected_between hk (by omega),
    powerAt_of_get? (get?_corrected_offset (by omega))]

theorem powerAt_corrected_outside (hle : offset ≤ boundary) {t : Int}
    (ht : t < offset ∨ boundary ≤ t) :
    powerAt (entry.corrected power offset boundary) t = powerAt entry.task.power t := by
  -- Seen as an update of the former profile, the part that is sent leaves the rest alone.
  have hfirst : (entry.sentPart power offset boundary).firstKey? = some offset :=
    firstKey?_sentPart hle
  have hlast : (entry.sentPart power offset boundary).lastKey? = some boundary :=
    lastKey?_sentPart hle
  rw [← corrected_sentPart hle]
  rcases ht with hbefore | hbehind
  · exact powerAt_corrected_of_lt_first hlast hfirst hbefore
  · exact powerAt_corrected_of_last_le hlast hfirst hbehind

theorem sentPart_eq_ofList (hlt : offset < boundary) :
    entry.sentPart power offset boundary
      = .ofList [(offset, power), (boundary, powerAt entry.task.power boundary)] := by
  apply OrderedMap.ext_get?
  intro k
  rw [get?_sentPart, OrderedMap.get?_ofList]
  rcases lt_trichotomy k offset with hbefore | rfl | hafter
  · rw [if_neg (by omega)]
    simp [show ¬ offset = k by omega, show ¬ boundary = k by omega]
  · rw [if_pos ⟨Int.le_refl k, hlt.le⟩, get?_corrected_offset hlt]
    simp [show ¬ boundary = k by omega]
  · rcases lt_trichotomy k boundary with hbetween | rfl | hbehind
    · rw [if_pos ⟨hafter.le, hbetween.le⟩, get?_corrected_between hafter hbetween]
      simp [show ¬ offset = k by omega, show ¬ boundary = k by omega]
    · rw [if_pos ⟨hlt.le, Int.le_refl k⟩, get?_corrected_boundary]
      simp
    · rw [if_neg (by omega)]
      simp [show ¬ offset = k by omega, show ¬ boundary = k by omega]

theorem entries_sentPart (hlt : offset < boundary) :
    (entry.sentPart power offset boundary).entries
      = [(offset, power), (boundary, powerAt entry.task.power boundary)] := by
  rw [sentPart_eq_ofList hlt, OrderedMap.entries_ofList (by simpa using hlt)]

/-! ## One task -/

/-- Either power is one to run at. -/
theorem exists_ite_eq_ok {condition : Prop} [Decidable condition] {power power' : Int} :
    ∃ watts, (if condition then .ok power else .ok power' : Except Halt Int) = .ok watts := by
  split
  · exact ⟨power, rfl⟩
  · exact ⟨power', rfl⟩

/-- Where the corridor is not crossed, there is a power to run at. -/
theorem Sound.correctedPower_eq_ok (h : entry.Sound) (share : Float) (offset boundary : Int) :
    ∃ power, entry.correctedPower share offset boundary = .ok power := by
  have hbounded : ∀ bound, entry.flexibility.powerCorridor.floorValue? offset = some bound →
      ∀ wanted, Halt.clamp bound.low bound.high wanted
        = .ok (max bound.low (min wanted bound.high)) := by
    intro bound hfloor wanted
    obtain ⟨k, -, hget⟩ := OrderedMap.exists_key_of_floorValue? hfloor
    have hle := h.ordered bound (OrderedMap.mem_values_iff_get?.2 ⟨k, hget⟩)
    exact if_neg (Int.not_lt.2 hle)
  -- The energy corridor decides between the power and 0 W.
  rw [correctedPower]
  cases entry.flexibility.residualEnergy? (entry.opened offset boundary) offset with
  | none =>
      split
      · rename_i bound hfloor
        rw [hbounded bound hfloor]
        exact ⟨_, rfl⟩
      · exact ⟨_, rfl⟩
  | some residual =>
      split
      · rename_i bound hfloor
        rw [hbounded bound hfloor]
        exact exists_ite_eq_ok
      · exact exists_ite_eq_ok

/-- While a sound task runs, its offset is in the narrow range and before the boundary, if the
    horizon does not lead out of that range. -/
theorem Sound.window (h : entry.Sound) (hrunning : entry.task.isRunning now = true)
    (hhorizon : 1 ≤ horizon)
    (hfits : now - entry.task.startingTime + horizon ≤ Quantity.greatest) :
    Quantity.low32 (now - entry.task.startingTime) = now - entry.task.startingTime ∧
    entry.boundary (now - entry.task.startingTime) horizon
      = min (now - entry.task.startingTime + horizon) entry.task.runningTime ∧
    now - entry.task.startingTime
      < min (now - entry.task.startingTime + horizon) entry.task.runningTime := by
  obtain ⟨hstart, hstop⟩ := Task.isRunning_iff.1 hrunning
  rw [Task.stop] at hstop
  have hnarrow := h.narrow
  have hleast : Quantity.least ≤ now - entry.task.startingTime := by
    rw [Quantity.least]
    omega
  refine ⟨Quantity.low32_eq_self hleast (by omega), ?_, by omega⟩
  rw [boundary, h.ends, Option.getD_some, max_eq_left hhorizon,
    Quantity.low32_eq_self (by omega) hfits]

/-- A sound task that runs is corrected or left to the next optimisation. -/
theorem Sound.correction_eq_ok (h : entry.Sound) (hrunning : entry.task.isRunning now = true)
    (hhorizon : 1 ≤ horizon)
    (hfits : now - entry.task.startingTime + horizon ≤ Quantity.greatest) (key : AdaptableKey)
    (share : Float) : ∃ c?, entry.correction key share now horizon = .ok c? := by
  obtain ⟨hoffset, hboundary, hlt⟩ := h.window hrunning hhorizon hfits
  obtain ⟨power, hpower⟩ := h.correctedPower_eq_ok share (now - entry.task.startingTime)
    (entry.boundary (now - entry.task.startingTime) horizon)
  rw [correction]
  dsimp only
  rw [hoffset, hpower]
  simp only [bind, Except.bind]
  split
  · rw [AdaptableEntry.window, if_neg (by omega)]
    exact ⟨_, rfl⟩
  · exact ⟨none, rfl⟩

/-- A correction of a sound task that runs changes a valid window of it. -/
theorem Sound.adjusted (h : entry.Sound) (hrunning : entry.task.isRunning now = true)
    (hhorizon : 1 ≤ horizon)
    (hfits : now - entry.task.startingTime + horizon ≤ Quantity.greatest)
    (hcorrection : entry.correction key share now horizon = .ok (some c)) :
    entry.Adjusted (now - entry.task.startingTime)
      (min (now - entry.task.startingTime + horizon) entry.task.runningTime) c := by
  obtain ⟨hoffset, hboundary, hlt⟩ := h.window hrunning hhorizon hfits
  obtain ⟨offset, boundary, power, ho, hb, hle, haccepts, rfl⟩ := correction_eq_some hcorrection
  rw [hoffset] at ho
  rw [ho, hboundary] at hb
  rw [← hb] at hlt ⊢
  rw [← ho] at hlt ⊢
  have hvalid := Flexibility.accepts_iff_fits.1 haccepts
  refine ⟨hlt, Flexibility.validate_eq_ok_iff_fits.2 hvalid,
    fun t ht => powerAt_corrected_outside hle ht, ?_, ?_⟩
  · -- The gate has looked at the power in force at the present offset.
    have h0 : 0 ≤ offset := ho ▸ by have := (Task.isRunning_iff.1 hrunning).1; omega
    have hkey : boundary ∈ (entry.corrected power offset boundary).keys :=
      OrderedMap.mem_keys_iff_get?.2 ⟨_, get?_corrected_boundary entry power offset boundary⟩
    obtain ⟨bound, hbound, hin⟩ :=
      hvalid.power offset h0 ((Flexibility.lt_horizon_iff h0).2 ⟨boundary, .inl hkey, hlt⟩)
    rw [powerAt_corrected_inside (Int.le_refl offset) hlt] at hin
    exact ⟨power, bound, fun t hot htb => powerAt_corrected_inside hot htb, hbound, hin⟩
  · exact ⟨power, _, get?_corrected_offset hlt, get?_corrected_boundary entry power offset boundary,
      entries_sentPart hlt⟩

end AdaptableEntry

/-! ## All running tasks -/

theorem AdaptableIndex.mem_running_iff {index : AdaptableIndex} {key : AdaptableKey} {now : Int} :
    key ∈ AdaptableIndex.running index now ↔
      ∃ entry, index.get? key = some entry ∧ entry.task.adaptable = true ∧
        entry.task.isRunning now = true := by
  rw [running, List.mem_map]
  constructor
  · rintro ⟨⟨_, entry⟩, hmem, rfl⟩
    obtain ⟨hentry, hruns⟩ := List.mem_filter.1 hmem
    exact ⟨entry, OrderedMap.get?_eq_some_iff.2 hentry, (Bool.and_eq_true _ _).mp hruns⟩
  · rintro ⟨entry, hget, hruns⟩
    exact ⟨(key, entry), List.mem_filter.2 ⟨OrderedMap.get?_eq_some_iff.1 hget,
      (Bool.and_eq_true _ _).mpr hruns⟩, rfl⟩

theorem AdaptableIndex.mem_running_iff_of_get? {index : AdaptableIndex} {key : AdaptableKey}
    {entry : AdaptableEntry} {now : Int} (hentry : index.get? key = some entry) :
    key ∈ AdaptableIndex.running index now ↔
      entry.task.adaptable = true ∧ entry.task.isRunning now = true := by
  rw [mem_running_iff, hentry]
  simp

namespace Adapter

variable {a : Adapter} {share : Float} {now horizon : Int}

/-- A round that is answered for every one of its tasks is answered, and every task of it is
    counted once: as adjusted if something is sent for it, or else as rejected. -/
theorem adaptAll_eq_ok {keys : List AdaptableKey} (hnodup : keys.Nodup)
    (hanswered : ∀ key ∈ keys, ∃ entry c?, a.index.get? key = some entry ∧
      entry.correction key share now horizon = .ok c?) :
    ∃ round a', adaptAll share now horizon keys a = .ok (round, a') ∧
      (round.confirmations.map (·.key)).Sublist keys ∧
      round.adjusted = round.confirmations.length ∧
      round.adjusted + round.rejected = keys.length := by
  induction keys generalizing a with
  | nil => exact ⟨.nothing, a, rfl, List.Sublist.slnil, rfl, rfl⟩
  | cons first rest ih =>
      obtain ⟨hfirst, hrest⟩ := List.nodup_cons.1 hnodup
      obtain ⟨entry, c?, hentry, hcorrection⟩ := hanswered first List.mem_cons_self
      have hlater : ∀ b : Adapter, (∀ key ∈ rest, b.index.get? key = a.index.get? key) →
          ∀ key ∈ rest, ∃ entry c?, b.index.get? key = some entry ∧
            entry.correction key share now horizon = .ok c? := by
        intro b hb key hkey
        rw [hb key hkey]
        exact hanswered key (List.mem_cons_of_mem _ hkey)
      rw [adaptAll, hentry]
      simp only [hcorrection]
      cases c? with
      | none =>
          obtain ⟨round, a', hround, hsub, hadjusted, hcount⟩ :=
            ih (a := a.requestOptimization now) hrest (hlater _ fun _ _ => rfl)
          refine ⟨{ round with rejected := round.rejected + 1 }, a', ?_, hsub.cons first,
            hadjusted, ?_⟩
          · simp only [bind, Except.bind, hround, pure, Except.pure]
          · rw [List.length_cons, ← hcount, Nat.add_assoc]
      | some c =>
          have hb : ∀ key ∈ rest, (a.setPower first c.adapted).index.get? key
              = a.index.get? key := by
            intro key hkey
            rw [get?_setPower, if_neg]
            rintro rfl
            exact hfirst hkey
          obtain ⟨round, a', hround, hsub, hadjusted, hcount⟩ :=
            ih (a := a.setPower first c.adapted) hrest (hlater _ hb)
          obtain ⟨hkey, -⟩ := AdaptableEntry.backup_of_correction hcorrection
          refine ⟨{ round with
            adjusted := round.adjusted + 1
            confirmations := c :: round.confirmations }, a', ?_, ?_, ?_, ?_⟩
          · simp only [bind, Except.bind, hround, pure, Except.pure]
          · rw [List.map_cons, hkey]
            exact hsub.cons_cons first
          · rw [List.length_cons, hadjusted]
          · rw [List.length_cons, ← hcount]
            show round.adjusted + 1 + round.rejected = _
            omega

/-- A key that is not asked for has no part in the round. -/
theorem adaptAll_spares {keys : List AdaptableKey} {round : AdaptationRound} {a' : Adapter}
    (hnodup : keys.Nodup) (hround : adaptAll share now horizon keys a = .ok (round, a'))
    {key : AdaptableKey} (hkey : key ∉ keys) :
    a'.index.get? key = a.index.get? key ∧ ∀ c ∈ round.confirmations, c.key ≠ key := by
  obtain ⟨hnone, hchange⟩ := adaptAll_revises hnodup hround key
  exact ⟨hchange.eq_of_none (hnone hkey), hnone hkey⟩

/-- As long as nobody else uses the index, a measurement is answered for sound entries. Every
    running adaptable task is counted once, as adjusted or as rejected. Entries of other tasks
    stay as they are, and so do those of rejected tasks, for which nothing is sent. For an
    adjusted task one correction is sent, and it changes a valid window of the profile. The
    horizon must not lead out of the narrow range. -/
theorem measurement_changes_windows (a : Adapter) (data : MonitoringData) (now horizon : Int)
    (hsound : ∀ key entry, a.index.get? key = some entry → entry.Sound) (hhorizon : 1 ≤ horizon)
    (hfits : ∀ key entry, a.index.get? key = some entry →
      entry.task.adaptable = true ∧ entry.task.isRunning now = true →
      now - entry.task.startingTime + horizon ≤ Quantity.greatest) :
    ∃ round a', a.adaptUnlessLocked false data now horizon = .ok (round, a') ∧
      (round.confirmations.map (·.key)).Sublist (AdaptableIndex.running a.index now) ∧
      round.adjusted = round.confirmations.length ∧
      round.adjusted + round.rejected = (AdaptableIndex.running a.index now).length ∧
      (∀ key, a.index.get? key = none → a'.index.get? key = none) ∧
      ∀ key entry, a.index.get? key = some entry →
        (¬ (entry.task.adaptable = true ∧ entry.task.isRunning now = true) →
          a'.index.get? key = some entry ∧ ∀ c ∈ round.confirmations, c.key ≠ key) ∧
        (entry.task.adaptable = true ∧ entry.task.isRunning now = true →
          (a'.index.get? key = some entry ∧ ∀ c ∈ round.confirmations, c.key ≠ key) ∨
          ∃ c, round.confirmations.filter (·.key = key) = [c] ∧
            a'.index.get? key = some (entry.withPower c.adapted) ∧
            entry.Adjusted (now - entry.task.startingTime)
              (min (now - entry.task.startingTime + horizon) entry.task.runningTime) c) := by
  have hanswered : ∀ key ∈ AdaptableIndex.running a.index now, ∃ entry c?,
      a.index.get? key = some entry ∧ entry.correction key
        (data.difference / Float.ofInt (AdaptableIndex.running a.index now).length) now horizon
          = .ok c? := by
    intro key hkey
    obtain ⟨entry, hentry, hruns⟩ := AdaptableIndex.mem_running_iff.1 hkey
    obtain ⟨c?, hc⟩ := (hsound key entry hentry).correction_eq_ok hruns.2 hhorizon
      (hfits key entry hentry hruns) key _
    exact ⟨entry, c?, hentry, hc⟩
  have hnodup := AdaptableIndex.nodup_running a.index now
  obtain ⟨round, a', hround, hsub, hadjusted, hcount⟩ := adaptAll_eq_ok hnodup hanswered
  refine ⟨round, a', hround, hsub, hadjusted, hcount, fun key hnone => ?_,
    fun key entry hentry => ⟨fun hruns => ?_, fun hruns => ?_⟩⟩
  · rw [(adaptAll_spares hnodup hround fun hkey => ?_).1, hnone]
    obtain ⟨entry, hentry, -⟩ := AdaptableIndex.mem_running_iff.1 hkey
    rw [hnone] at hentry
    cases hentry
  · have hkey : key ∉ AdaptableIndex.running a.index now :=
      fun hkey => hruns ((AdaptableIndex.mem_running_iff_of_get? hentry).1 hkey)
    rw [← hentry]
    exact adaptAll_spares hnodup hround hkey
  · have hchange := (adaptAll_revises hnodup hround key).2
    rw [hentry] at hchange
    generalize a'.index.get? key = after at hchange
    cases hchange with
    | untouched hnone => exact .inl ⟨rfl, hnone⟩
    | @corrected _ c honly hcorrection =>
        exact .inr ⟨c, honly, rfl,
          (hsound key entry hentry).adjusted hruns.2 hhorizon (hfits key entry hentry hruns)
            hcorrection⟩

theorem sound_oneHour {key : AdaptableKey} {entry : AdaptableEntry}
    (h : oneHour.index.get? key = some entry) :
    entry = .hourAtHalfKilowatt ∧ entry.Sound := by
  rw [oneHour, OrderedMap.get?_singleton] at h
  split at h
  · cases h
    exact ⟨rfl, by decide, rfl, by decide⟩
  · cases h

/-- At 600 s the hour is corrected by the shortfall for 80 s. -/
theorem measurement_changes_windows_shortfall :
    ∃ c, AdaptableEntry.hourAtHalfKilowatt.Adjusted 600 680 c ∧
      c.update.entries = [(600, 600), (680, 500)] := by
  have hentry : oneHour.index.get? ⟨⟨1⟩, 4⟩ = some .hourAtHalfKilowatt := rfl
  obtain ⟨round, a', hround, -, -, -, -, hentries⟩ :=
    measurement_changes_windows oneHour .shortfall 600 80 (fun _ _ h => (sound_oneHour h).2)
      (by decide) fun _ _ h _ => (sound_oneHour h).1 ▸ by decide
  have hadapt : (oneHour.adaptUnlessLocked false .shortfall 600 80).map (·.1) = .ok ⟨1, 0, [
      { key := ⟨⟨1⟩, 4⟩
        update := .ofList [(600, 600), (680, 500)]
        adapted := .ofList [(0, 500), (600, 600), (680, 500), (3600, 0)]
        backup := .ofList [(0, 500), (3600, 0)] }]⟩ := by
    decide +kernel
  rw [hround] at hadapt
  cases hadapt
  rcases (hentries _ _ hentry).2 (by decide) with ⟨-, hnone⟩ | ⟨c, honly, -, hadjusted⟩
  · exact absurd rfl (hnone _ (List.mem_singleton_self _))
  · cases honly
    exact ⟨_, hadjusted, rfl⟩

/-- The longest horizon leads out of the narrow range: counted on from 600 s, it ends before the
    task has begun. There is no window then, and no answer. -/
theorem longest_horizon_halts :
    (∀ key entry, oneHour.index.get? key = some entry → entry.Sound) ∧ 1 ≤ Quantity.greatest ∧
      oneHour.adaptUnlessLocked false .shortfall 600 Quantity.greatest = .error .reversedWindow :=
  ⟨fun _ _ h => (sound_oneHour h).2, by decide, by decide +kernel⟩

end Adapter

end SiteDispatch
