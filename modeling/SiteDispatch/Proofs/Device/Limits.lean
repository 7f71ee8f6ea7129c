/-
  SiteDispatch.Proofs.Device.Limits

  Accepted commits keep the energy limits of the device.

  The energy window that is offered for a task leads from the stored energy expected
  where planning begins to the limits of the device, kept apart from them by the
  buffer, and always lets the device rest. An accepted profile keeps the window at
  every key of its own, hence at every second, and the timeline shows the profile
  after the commit. What the conversion between Ws and Wh drops is dropped on the
  safe side.
-/

import SiteDispatch.Calendar.ZoneTable
import SiteDispatch.Proofs.Device.Reachable
import SiteDispatch.Proofs.Device.Timeline

namespace SiteDispatch

open PowerProfile

/-! ## Ws and Wh -/

theorem wattHours_eq (ws : Int) :
    Quantity.wattHours ws = if 0 ≤ ws then ws / 3600 else -(-ws / 3600) := by
  rw [Quantity.wattHours]
  split
  · rename_i h
    exact Int.tdiv_eq_ediv_of_nonneg h
  · rw [← Int.tdiv_eq_ediv_of_nonneg (show 0 ≤ -ws by omega), Int.neg_tdiv, Int.neg_neg]

theorem wattHours_sub_le (ws : Int) {e n : Int} (hn : 0 ≤ n) (he : -(n * 3600) ≤ e) :
    Quantity.wattHours ws - n ≤ Quantity.wattHours (ws + e) := by
  rw [wattHours_eq, wattHours_eq]
  split_ifs <;> omega

theorem wattHours_le_add (ws : Int) {e n : Int} (hn : 0 ≤ n) (he : e ≤ n * 3600) :
    Quantity.wattHours (ws + e) ≤ Quantity.wattHours ws + n := by
  rw [wattHours_eq, wattHours_eq]
  split_ifs <;> omega

namespace DeviceConfig

/-- Resting is always offered. -/
theorem energyWindow_contains_zero (c : DeviceConfig) (stored : Int) :
    (c.energyWindow stored).contains 0 := by
  simp only [energyWindow, Interval.contains_iff, Quantity.saturate, Quantity.least,
    Quantity.greatest]
  omega

/-- The energy `after` keeps the buffered limits, or is no farther outside than `before`. -/
def KeepsLimits (c : DeviceConfig) (before after : Int) : Prop :=
  min (c.minEnergy + c.energyBuffer) before ≤ after ∧
    after ≤ max (c.maxEnergy - c.energyBuffer) before

/-- What the window around an expected energy admits leads to the buffered limits at
    most, or leaves the energy where it is. -/
theorem keepsLimits_of_energyWindow (c : DeviceConfig) {stored ws e : Int}
    (h : (c.energyWindow (stored + Quantity.wattHours ws)).contains e) :
    c.KeepsLimits (stored + Quantity.wattHours ws) (stored + Quantity.wattHours (ws + e)) := by
  obtain ⟨hlow, hhigh⟩ := Interval.contains_iff.1 h
  simp only [energyWindow, Quantity.saturate, Quantity.least, Quantity.greatest] at hlow hhigh
  -- Either side leaves a whole number of Wh, none if the limit has been passed already.
  have hdown := wattHours_sub_le ws (e := e)
    (n := max (stored + Quantity.wattHours ws - c.minEnergy - c.energyBuffer) 0) (by omega)
    (by omega)
  have hup := wattHours_le_add ws (e := e)
    (n := max (c.maxEnergy - (stored + Quantity.wattHours ws) - c.energyBuffer) 0) (by omega)
    (by omega)
  rw [KeepsLimits]
  omega

end DeviceConfig

namespace DeviceState

theorem expectedEnergy_eq_sum (s : DeviceState) (now time stored : Int) :
    s.expectedEnergy now time stored = stored + Quantity.wattHours
      (∑ t ∈ Finset.Ico now time, PowerProfile.powerAt s.scheduledPower t) := by
  rw [expectedEnergy, energyBetween_eq_sum]

/-! ## Offered corridors -/

theorem get?_startedPower (offset : Int) (range : Interval) (k : Int) :
    (startedPower offset range).get? k
      = if k = offset then some range else if k = 0 then some Interval.zero else none := by
  rw [startedPower, OrderedMap.get?_insert, OrderedMap.get?_singleton]

/-- Before the offset nothing is offered. -/
theorem floorValue?_startedPower_of_lt {offset t : Int} (range : Interval) (h0 : 0 ≤ t)
    (ht : t < offset) : (startedPower offset range).floorValue? t = some Interval.zero := by
  rw [startedPower, OrderedMap.floorValue?_insert_of_lt _ ht, OrderedMap.floorValue?_eq_some_iff]
  refine ⟨0, OrderedMap.get?_singleton 0 _ 0, h0, fun j hj _ => ?_⟩
  rw [OrderedMap.get?_singleton, if_neg (by omega)]

/-- A profile that fits rests there. -/
theorem powerAt_eq_zero_of_fits {f : Flexibility} {offset startingTime t : Int} {range : Interval}
    {p : PowerProfile} (hpower : f.powerCorridor = startedPower offset range)
    (hfits : f.Fits startingTime p) (h0 : 0 ≤ t) (ht : t < offset) :
    PowerProfile.powerAt p t = 0 := by
  have hkey : offset ∈ f.powerCorridor.keys := by
    rw [hpower, OrderedMap.mem_keys_iff_get?, get?_startedPower, if_pos rfl]
    exact ⟨_, rfl⟩
  have hhorizon : t < f.horizon p := (Flexibility.lt_horizon_iff h0).2 ⟨_, .inr hkey, ht⟩
  obtain ⟨bound, hbound, hin⟩ := hfits.power t h0 hhorizon
  rw [hpower, floorValue?_startedPower_of_lt _ h0 ht, Option.some.injEq] at hbound
  rw [← hbound, Interval.contains_iff, Interval.zero] at hin
  exact Int.le_antisymm hin.2 hin.1

theorem lastEntry?_startedEnergy {offset : Int} (window : Interval) (h0 : 0 ≤ offset) :
    OrderedMap.lastEntry? (startedEnergy offset window) = some (offset, window) := by
  rw [OrderedMap.lastEntry?_eq_some_iff]
  refine ⟨OrderedMap.get?_insert_self _ _ _, fun j hj => ?_⟩
  rw [OrderedMap.mem_keys_iff_get?, startedEnergy] at hj
  simp only [OrderedMap.get?_insert, OrderedMap.get?_singleton] at hj
  obtain ⟨v, hv⟩ := hj
  split_ifs at hv <;> omega

/-- From where planning begins on, or from the end of a task that is over, the energy
    corridor of a refreshed flexibility is the window around the energy expected there. -/
theorem Refreshed.energyConstraint? {s : DeviceState} {now stored : Int} {c : DeviceConfig}
    {task : Task} {f : Flexibility} (h : Refreshed s now stored c task f)
    (hsoc : task.startingTime ≤ now → s.socTargetActive now = false) {k : Int} (h0 : 0 ≤ k)
    (hk : min (max now task.startingTime - task.startingTime) task.runningTime ≤ k) :
    f.energyConstraint? k
      = some (c.energyWindow (s.expectedEnergy now (max now task.startingTime) stored)) := by
  -- In either case the window is the last entry of the corridor.
  by_cases hstarted : task.startingTime ≤ now
  · obtain ⟨hrun, -, henergy⟩ := h.started hstarted (hsoc hstarted)
    rw [Int.max_eq_left hstarted, expectedEnergy_now]
    refine Flexibility.energyConstraint?_of_lastEntry?
      (k := min (now - task.startingTime) task.runningTime) ?_ (by omega)
    rw [henergy]
    exact lastEntry?_startedEnergy _ (by omega)
  · have henergy := h.futureEnergy (by omega)
    rw [Int.max_eq_right (by omega)]
    refine Flexibility.energyConstraint?_of_lastEntry? (k := 0) ?_ (by omega)
    rw [henergy]
    rfl

/-! ## Commits -/

/-- The accepted commits for a task that was listed at `now`: a profile with the same
    ends for one that has not started, a correction of one that has. A correction
    that ends before `now` returns to the value of the task there, which the timeline
    must show at that instant. -/
inductive Commits (now : Int) (task : Task) (s : DeviceState) : DeviceState → Prop
  | schedule {s' : DeviceState} {power : PowerProfile} (hkeys : ∀ k ∈ power.keys, 0 ≤ k)
      (hend : power.lastKey? = some task.runningTime)
      (hok : s.schedule task.flexibilityId task.startingTime power now = (.ok, s')) :
      Commits now task s s'
  | adapt {s' : DeviceState} (update : PowerProfile) (hstarted : task.startingTime ≤ now)
      (hshown : ∀ last, update.lastKey? = some last → task.startingTime + last < now →
        s.powerAt (task.startingTime + last) = task.powerAt last)
      (hok : s.adapt task.flexibilityId update = (.ok, s')) : Commits now task s s'

section Shown

variable {s s' : DeviceState} {f : Flexibility} {p : PowerProfile} {c : DeviceConfig}
  {now stored start stop planned : Int}

/-- From `planned` on the timeline delivers what the profile does. The timeline counts
    from the epoch, the profile from the start of the task. -/
theorem sum_timeline_eq_sum_profile
    (hshown : ∀ t, planned ≤ t → t < stop →
      PowerProfile.powerAt s'.scheduledPower t = PowerProfile.powerAt p (t - start))
    {t : Int} (htstop : t ≤ stop) :
    ∑ u ∈ Finset.Ico planned t, PowerProfile.powerAt s'.scheduledPower u
      = ∑ u ∈ Finset.Ico (planned - start) (t - start), PowerProfile.powerAt p u := by
  have hshift := sum_Ico_shift (PowerProfile.powerAt s'.scheduledPower) start
    (planned - start) (t - start)
  have hplanned : start + (planned - start) = planned := by omega
  have ht : start + (t - start) = t := by omega
  rw [hplanned, ht] at hshift
  rw [hshift]
  apply Finset.sum_congr rfl
  intro u hu
  have hu := Finset.mem_Ico.1 hu
  rw [hshown (start + u) (by omega) (by omega)]
  congr 1
  omega

/-- A profile that delivers nothing before `planned` keeps the window in force from
    there on at every second, not only at its keys. -/
theorem contains_sum_of_fits (hstart : start ≤ planned) (hfits : f.Fits start p)
    (hrest : ∑ t ∈ Finset.Ico 0 (planned - start), PowerProfile.powerAt p t = 0)
    {window : Interval} (hzero : window.contains 0)
    (hwindow : ∀ k, planned - start ≤ k → f.energyConstraint? k = some window)
    {t : Int} (ht : planned ≤ t) :
    window.contains (∑ u ∈ Finset.Ico 0 (t - start), PowerProfile.powerAt p u) := by
  obtain ⟨last, hlast, -⟩ := hfits.stops
  apply contains_sum_of_keys hlast (a := planned - start) (by omega) (by omega)
  · rw [hrest]
    exact hzero
  · intro k hk hlt
    obtain ⟨bound, hbound, hin⟩ := hfits.energy k (by omega) (.inl hk)
    rw [hwindow k hlt.le, Option.some.injEq] at hbound
    exact hbound ▸ hin

/-- If the timeline shows a fitting profile from `planned` on, with nothing delivered
    before, the limits are kept from there to the end. -/
theorem keepsLimits_of_shown (hnow : now ≤ planned) (hstart : start ≤ planned)
    (hfits : f.Fits start p)
    (hsame : ∀ t, now ≤ t → t < planned →
      PowerProfile.powerAt s'.scheduledPower t = PowerProfile.powerAt s.scheduledPower t)
    (hshown : ∀ t, planned ≤ t → t < stop →
      PowerProfile.powerAt s'.scheduledPower t = PowerProfile.powerAt p (t - start))
    (hrest : ∑ t ∈ Finset.Ico 0 (planned - start), PowerProfile.powerAt p t = 0)
    (hwindow : ∀ k, planned - start ≤ k →
      f.energyConstraint? k = some (c.energyWindow (s.expectedEnergy now planned stored)))
    {t : Int} (ht : planned ≤ t) (htstop : t ≤ stop) :
    c.KeepsLimits (s.expectedEnergy now planned stored) (s'.expectedEnergy now t stored) := by
  have hcontains := contains_sum_of_fits hstart hfits hrest (c.energyWindow_contains_zero _)
    hwindow ht
  -- What is delivered by `t` is what was expected by `planned` and the profile from there on.
  have hbefore : ∑ u ∈ Finset.Ico now planned, PowerProfile.powerAt s'.scheduledPower u
      = ∑ u ∈ Finset.Ico now planned, PowerProfile.powerAt s.scheduledPower u := by
    apply Finset.sum_congr rfl
    intro u hu
    exact hsame u (Finset.mem_Ico.1 hu).1 (Finset.mem_Ico.1 hu).2
  have hprofile : ∑ u ∈ Finset.Ico (planned - start) (t - start), PowerProfile.powerAt p u
      = ∑ u ∈ Finset.Ico 0 (t - start), PowerProfile.powerAt p u := by
    rw [← sum_Ico_add_sum_Ico _ (show 0 ≤ planned - start by omega)
      (show planned - start ≤ t - start by omega), hrest, Int.zero_add]
  have hdelivered : ∑ u ∈ Finset.Ico now t, PowerProfile.powerAt s'.scheduledPower u
      = ∑ u ∈ Finset.Ico now planned, PowerProfile.powerAt s.scheduledPower u
        + ∑ u ∈ Finset.Ico 0 (t - start), PowerProfile.powerAt p u := by
    rw [← sum_Ico_add_sum_Ico _ hnow ht, hbefore, sum_timeline_eq_sum_profile hshown htstop,
      hprofile]
  rw [expectedEnergy_eq_sum] at hcontains
  rw [expectedEnergy_eq_sum s', hdelivered, expectedEnergy_eq_sum s]
  exact c.keepsLimits_of_energyWindow hcontains

end Shown

/-- A profile that fits a refreshed flexibility rests before planning begins: the
    corridor has closed what lies before `now`. -/
theorem sum_eq_zero_of_fits_started {s : DeviceState} {now stored : Int} {c : DeviceConfig}
    {task : Task} {f : Flexibility} (hoffer : Refreshed s now stored c task f)
    (hstarted : task.startingTime ≤ now) (hsoc : s.socTargetActive now = false)
    (hstop : now ≤ task.stop) {startingTime : Int} {p : PowerProfile}
    (hfits : f.Fits startingTime p) :
    ∑ u ∈ Finset.Ico 0 (now - task.startingTime), PowerProfile.powerAt p u = 0 := by
  obtain ⟨-, hpower, -⟩ := hoffer.started hstarted hsoc
  have hoffset : min (now - task.startingTime) task.runningTime = now - task.startingTime := by
    simp only [Task.stop] at hstop
    omega
  rw [hoffset] at hpower
  apply Finset.sum_eq_zero
  intro u hu
  obtain ⟨hu0, hunow⟩ := Finset.mem_Ico.1 hu
  exact powerAt_eq_zero_of_fits hpower hfits hu0 hunow

section Limits

variable {s s' : DeviceState} {c : DeviceConfig} {now stored id : Int} {task : Task}
  {f : Flexibility}

/-- A profile scheduled for a listed task keeps the limits. -/
theorem keepsLimits_of_schedule (hlinked : Linked id f task)
    (htask : s.tasks.get? id = some task) (hf : s.flexibilities.get? id = some f)
    (hoffer : Refreshed s now stored c task f)
    (hsoc : task.startingTime ≤ now → s.socTargetActive now = false) {power : PowerProfile}
    (hkeys : ∀ k ∈ power.keys, 0 ≤ k) (hend : power.lastKey? = some task.runningTime)
    (hok : s.schedule task.flexibilityId task.startingTime power now = (.ok, s')) {t : Int}
    (ht : max now task.startingTime ≤ t) (htstop : t ≤ task.stop) :
    c.KeepsLimits (s.expectedEnergy now (max now task.startingTime) stored)
      (s'.expectedEnergy now t stored) := by
  rw [hlinked.named] at hok
  obtain ⟨hstarted, hfits, hs'⟩ := schedule_eq_ok hok hf (hlinked.assigned.symm ▸ htask)
  have hnow : now ≤ task.startingTime := by
    simpa [Task.hasStarted] using hstarted
  -- Planning begins with the task.
  have hplanned : max now task.startingTime = task.startingTime := Int.max_eq_right hnow
  have hlast : (rescheduled task task.startingTime power).power.lastKey?
      = some task.runningTime := lastKey?_compress hend
  have hzero : 0 ∈ (rescheduled task task.startingTime power).power.keys :=
    zero_mem_keys_compress hfits.starts
  have hwindow : ∀ k, task.startingTime - task.startingTime ≤ k → f.energyConstraint? k
      = some (c.energyWindow (s.expectedEnergy now task.startingTime stored)) := by
    intro k hk
    rw [hoffer.energyConstraint? hsoc (by omega) (by omega), hplanned]
  rw [hplanned] at ht ⊢
  refine keepsLimits_of_shown hnow (Int.le_refl _) hfits ?_ ?_ ?_ hwindow ht htstop
  · intro u _ hu
    rw [hs']
    exact powerAt_scheduled_of_lt (fun k hk => hkeys k (mem_keys_of_compress hk)) hu hu
  · intro u hu hustop
    have hshown := powerAt_scheduled s.scheduledPower task.startingTime hzero hlast
      (t := u - task.startingTime) (by omega)
      (by simp only [Task.stop] at hustop; omega)
    have hu : task.startingTime + (u - task.startingTime) = u := by omega
    rw [hu] at hshown
    rw [hs']
    exact hshown.trans (powerAt_compress _ _ _)
  · rw [Int.sub_self, Finset.Ico_self, Finset.sum_empty]

/-- A correction of a started task keeps the limits if the timeline shows the task from
    now on and where the correction ends. -/
theorem keepsLimits_of_adapt (hlinked : Linked id f task)
    (htask : s.tasks.get? id = some task) (hf : s.flexibilities.get? id = some f)
    (hoffer : Refreshed s now stored c task f) (hstarted : task.startingTime ≤ now)
    (hsoc : s.socTargetActive now = false)
    (hagree : ∀ t, now ≤ t → t < task.stop → s.powerAt t = task.powerAt (t - task.startingTime))
    {update : PowerProfile}
    (hshown : ∀ last, update.lastKey? = some last → task.startingTime + last < now →
      s.powerAt (task.startingTime + last) = task.powerAt last)
    (hok : s.adapt task.flexibilityId update = (.ok, s')) {t : Int}
    (ht : max now task.startingTime ≤ t) (htstop : t ≤ task.stop) :
    c.KeepsLimits (s.expectedEnergy now (max now task.startingTime) stored)
      (s'.expectedEnergy now t stored) := by
  rw [hlinked.named] at hok
  obtain ⟨first, last, hfirst, hlast, hfits, hs'⟩ :=
    adapt_eq_ok hok hf (hlinked.assigned.symm ▸ htask)
  -- Planning begins now, in the middle of the task.
  have hplanned : max now task.startingTime = now := Int.max_eq_left hstarted
  have hwindow : ∀ k, now - task.startingTime ≤ k → f.energyConstraint? k
      = some (c.energyWindow (s.expectedEnergy now now stored)) := by
    intro k hk
    rw [hoffer.energyConstraint? (fun _ => hsoc) (by omega) (by omega), hplanned]
  rw [hplanned] at ht ⊢
  refine keepsLimits_of_shown (Int.le_refl _) hstarted hfits ?_ ?_ ?_ hwindow ht htstop
  · exact fun u hu hlt => absurd hlt (by omega)
  · intro u hu hustop
    have hadapted := powerAt_adapted hfirst hlast hagree (hshown last hlast)
      (t := u - task.startingTime) (by omega) (by omega)
    have hu : task.startingTime + (u - task.startingTime) = u := by omega
    rw [hu] at hadapted
    rw [hs']
    exact hadapted
  · exact sum_eq_zero_of_fits_started hoffer hstarted hsoc (ht.trans htstop) hfits

end Limits

/-- In every reachable state: once a request for the schedule has been answered at
    `now`, every accepted commit for a listed task keeps the energy expected from then,
    or from the start of the task, to its end between the limits, kept apart from them
    by the buffer; where it was outside already, it does not get farther out. For a
    started task, no charge target may be active and the timeline must show the task
    from `now` on. -/
theorem commit_keeps_limits {s s' s'' : DeviceState} (hs : Reachable (fun _ => True) s)
    {device : DeviceId} {start stop now stored : Int} {zone : Zone} {c : DeviceConfig}
    {summary : ScheduleSummary}
    (hget : s.getSchedule device start stop now stored zone c = .ok (summary, s'))
    {id : Int} {task : Task} (hid : id ∈ summary.taskIds) (htask : s'.tasks.get? id = some task)
    (hshown : task.startingTime ≤ now → s'.socTargetActive now = false ∧
      ∀ t, now ≤ t → t < task.stop → s'.powerAt t = task.powerAt (t - task.startingTime))
    (hcommit : Commits now task s' s'') :
    ∀ t, max now task.startingTime ≤ t → t ≤ task.stop →
      min (c.minEnergy + c.energyBuffer)
            (s'.expectedEnergy now (max now task.startingTime) stored)
          ≤ s''.expectedEnergy now t stored ∧
        s''.expectedEnergy now t stored
          ≤ max (c.maxEnergy - c.energyBuffer)
            (s'.expectedEnergy now (max now task.startingTime) stored) := by
  intro t ht htstop
  -- Whatever has happened before, the listed flexibility belongs to the task and is fresh.
  have hinv := linkedInvariant (fun _ => True)
  have hholds := hs.holds hinv
  obtain ⟨f, hf, hlinked⟩ := (hholds.getSchedule hinv trivial hget).paired.of_task htask
  have hoffer := hholds.refreshed hinv trivial hget hid htask hf
  cases hcommit with
  | schedule hkeys hend hok =>
      exact keepsLimits_of_schedule hlinked htask hf hoffer (fun h => (hshown h).1) hkeys hend hok
        ht htstop
  | adapt update hstarted hend hok =>
      exact keepsLimits_of_adapt hlinked htask hf hoffer hstarted (hshown hstarted).1
        (hshown hstarted).2 hend hok ht htstop

/-- 6 kWh, of which 80 percent may be used, with 2 kW. -/
def smallBattery : DeviceConfig := ⟨⟨1⟩, 6000, 10, 90, 2000, 2000, 100⟩

theorem commit_keeps_limits_started :
    ∃ s' s'' : DeviceState, ∃ summary task,
      DeviceState.fresh.getSchedule ⟨1⟩ 90000 90010 90000 3000 Zone.utc smallBattery
        = .ok (summary, s') ∧
      0 ∈ summary.taskIds ∧ s'.tasks.get? 0 = some task ∧ Commits 90000 task s' s'' ∧
      ∀ t, 90000 ≤ t → t ≤ task.stop →
        min (smallBattery.minEnergy + smallBattery.energyBuffer) 3000
            ≤ s''.expectedEnergy 90000 t 3000 ∧
          s''.expectedEnergy 90000 t 3000
            ≤ max (smallBattery.maxEnergy - smallBattery.energyBuffer) 3000 := by
  have hget : DeviceState.fresh.getSchedule ⟨1⟩ 90000 90010 90000 3000 Zone.utc smallBattery
      = .ok (⟨⟨1⟩, 90000, 90010, [0], [0], []⟩, DeviceOperation.perform .fresh
        (.getSchedule ⟨1⟩ 90000 90010 90000 3000 Zone.utc smallBattery)) := rfl
  have hcommit : Commits 90000 (Task.idle 0 0 true 86400 86400)
      (DeviceOperation.perform .fresh
        (.getSchedule ⟨1⟩ 90000 90010 90000 3000 Zone.utc smallBattery)) _ :=
    .adapt (.ofList [(3600, 1000), (7200, 0)]) (by decide)
      (fun last hlast hearly => by cases hlast; exact absurd hearly (by decide)) rfl
  refine ⟨_, _, _, _, hget, by decide, rfl, hcommit, ?_⟩
  -- Both the timeline and the task are at rest for the whole day.
  refine commit_keeps_limits .fresh hget (List.mem_singleton.2 rfl) rfl
    (fun _ => ⟨by decide, ?_⟩) hcommit
  intro t ht hstop
  show PowerProfile.powerAt _ t = PowerProfile.powerAt _ (t - 86400)
  have hstop' : t < 172800 := hstop
  have htask : ∀ j, j ∈ [0, 86400] → j = 0 ∨ j = (86400 : Int) := by simp
  refine (powerAt_of_keys (k := 86400) (v := 0) rfl (by omega) fun j hj _ => ?_).trans
    (powerAt_of_keys (k := 0) rfl (by omega) fun j hj _ => ?_).symm
  · have : j = 86400 := List.mem_singleton.1 hj
    omega
  · have := htask j hj
    omega

/-- A day that is offered twice: its task is shortened to the last two hours, so that
    the morning is not covered when it is asked for again. The second task plans the
    same charging and discharging in the evening as the first. -/
def overlappingDay : List DeviceOperation :=
  [.getSchedule ⟨1⟩ 86400 86410 0 3000 Zone.utc smallBattery,
   .schedule 0 165600 (.ofList [(0, 0), (7200, 0)]) 0,
   .getSchedule ⟨1⟩ 86400 86410 86400 700 Zone.utc smallBattery,
   .adapt 1 (.ofList [(81000, 500), (84600, -500), (86400, 0)]),
   .schedule 0 165600 (.ofList [(0, 500), (5400, -500), (7200, 0)]) 165600]

/-- It does not suffice that the timeline shows the task from `now` on: two tasks of one
    day show the same power from then on, but a second before only the timeline charges.
    A correction of the second task there ends the charging at once. -/
theorem adapt_leaves_limits :
    ∃ s s' s'' : DeviceState, ∃ summary task update,
      Reachable (fun _ => True) s ∧
      s.getSchedule ⟨1⟩ 86400 86410 167400 700 Zone.utc smallBattery = .ok (summary, s') ∧
      1 ∈ summary.taskIds ∧ s'.tasks.get? 1 = some task ∧
      task.startingTime ≤ 167400 ∧ s'.socTargetActive 167400 = false ∧
      (∀ t, 167400 ≤ t → t < task.stop → s'.powerAt t = task.powerAt (t - task.startingTime)) ∧
      (∀ k ∈ update.keys, 0 ≤ k) ∧ s'.adapt task.flexibilityId update = (.ok, s'') ∧
      s''.expectedEnergy 167400 task.stop 700
        < min (smallBattery.minEnergy + smallBattery.energyBuffer)
          (s'.expectedEnergy 167400 167400 700) := by
  refine ⟨_, _, _, _,
    ⟨1, 1, true, 86400, 86400, .ofList [(0, 0), (81000, 500), (84600, -500), (86400, 0)]⟩,
    .singleton 80999 0, Reachable.fresh.foldl overlappingDay fun _ _ => trivial,
    rfl, by decide, rfl, by decide, by decide, ?_, by decide, rfl, by decide⟩
  -- From `now` on the timeline and the task have the same two entries.
  intro t hnow hstop
  have hline : ∀ j, j ∈ [86400, 165600, 171000, 172800] →
      j = 86400 ∨ j = 165600 ∨ j = 171000 ∨ j = (172800 : Int) := by simp
  have htask : ∀ j, j ∈ [0, 81000, 84600, 86400] →
      j = 0 ∨ j = 81000 ∨ j = 84600 ∨ j = (86400 : Int) := by simp
  show PowerProfile.powerAt _ t = PowerProfile.powerAt _ (t - 86400)
  have hstop' : t < 172800 := hstop
  by_cases hfirst : t < 171000
  · refine (powerAt_of_keys (k := 165600) (v := 500) rfl (by omega) fun j hj _ => ?_).trans
      (powerAt_of_keys (k := 81000) rfl (by omega) fun j hj _ => ?_).symm
    · have := hline j hj
      omega
    · have := htask j hj
      omega
  · refine (powerAt_of_keys (k := 171000) (v := -500) rfl (by omega) fun j hj _ => ?_).trans
      (powerAt_of_keys (k := 84600) rfl (by omega) fun j hj _ => ?_).symm
    · have := hline j hj
      omega
    · have := htask j hj
      omega

end DeviceState
end SiteDispatch
