/-
  SiteDispatch.Proofs.Device.Planned

  What a plan leaves of the time before its window.

  A task that is planned for a window gets a profile for all of its length, which rests up to the
  window. Where the task has been running since before, the device rests from its start to the
  window; behind its end, and behind the start of a day that a request has created, it rests until
  the next setpoint. So at an instant before the window the device rests if some task or day is in
  force there, and otherwise goes on as before: one task after the other brings nothing else.
-/

import SiteDispatch.Proofs.Device.Frame
import SiteDispatch.Proofs.Device.Tasks
import SiteDispatch.Proofs.Device.WellFormed
import SiteDispatch.Proofs.Planning.Entry

namespace SiteDispatch

open PowerProfile

namespace PowerTimeline

variable {line line' line'' : PowerTimeline} {start stop first time : Int}

/-! ## One task -/

/-- A window that has begun by `time` is in force then if nothing has been set since its end. -/
def InForce (line : PowerTimeline) (start stop time : Int) : Prop :=
  start ≤ time ∧ ¬ line.SetBetween stop time

/-- Nothing but rest is set from `since` to `time`, both included. -/
def RestsSince (line : PowerTimeline) (since time : Int) : Prop :=
  ∀ k v, since ≤ k → k ≤ time → line.get? k = some v → v = 0

theorem InForce.restsSince (h : line.InForce start stop time) : line.RestsSince stop time :=
  fun k v hstop htime hv =>
    absurd ⟨k, OrderedMap.mem_keys_iff_get?.2 ⟨v, hv⟩, hstop, htime⟩ h.2

/-- The window of a task has been given a profile that rests before `first`, and nothing else has
    changed but that the timeline rests where the task ends, unless it has a setpoint there. -/
structure PlannedOver (line line' : PowerTimeline) (start stop first : Int) : Prop where
  outside : ∀ k, k < start ∨ stop < k → line'.get? k = line.get? k
  ends : line'.get? stop = (line.get? stop).or (some 0)
  rests : ∀ time, start ≤ time → time < stop → time < first → powerAt line' time = 0

namespace PlannedOver

/-- Before `first` every setpoint is an old one or one at rest. -/
theorem get?_cases (h : line.PlannedOver line' start stop first) (hk : k < first) {v : Int}
    (hv : line'.get? k = some v) : v = 0 ∨ line.get? k = some v := by
  by_cases hout : k < start ∨ stop < k
  · rw [h.outside k hout] at hv
    exact .inr hv
  · rcases Int.lt_or_eq_of_le (show k ≤ stop by omega) with hlt | rfl
    · rw [← powerAt_of_get? hv]
      exact .inl (h.rests k (by omega) hlt hk)
    · rw [h.ends] at hv
      cases hold : line.get? k with
      | none =>
          rw [hold] at hv
          exact .inl (Option.some.inj hv).symm
      | some u =>
          rw [hold] at hv
          exact .inr hv

theorem restsSince (h : line.PlannedOver line' start stop first) {since : Int}
    (htime : time < first) (hrests : line.RestsSince since time) : line'.RestsSince since time :=
  fun k v hsince hk hv => (h.get?_cases (by omega) hv).elim id (hrests k v hsince hk)

/-- From a setpoint that is not before the end of the window nothing changes. -/
theorem get?_from_setpoint (h : line.PlannedOver line' start stop first) {j k : Int}
    (hj : j ∈ line.keys) (hstop : stop ≤ j) (hk : j ≤ k) : line'.get? k = line.get? k := by
  rcases Int.lt_or_eq_of_le (Int.le_trans hstop hk) with hlt | rfl
  · exact h.outside k (.inr hlt)
  · -- The setpoint is where the task ends, and it is kept.
    obtain rfl : j = stop := by omega
    obtain ⟨v, hv⟩ := OrderedMap.mem_keys_iff_get?.1 hj
    rw [h.ends, hv, Option.some_or]

theorem mem_keys (h : line.PlannedOver line' start stop first) {j : Int} (hj : j ∈ line.keys)
    (hstop : stop ≤ j) : j ∈ line'.keys := by
  rw [OrderedMap.mem_keys_iff_get?, h.get?_from_setpoint hj hstop (Int.le_refl j)]
  exact OrderedMap.mem_keys_iff_get?.1 hj

/-- The device rests from where the task starts to the first power set after it. -/
theorem powerAt_eq_zero (h : line.PlannedOver line' start stop first) (htime : time < first)
    (hstart : start ≤ time) (hrests : line.RestsSince stop time) : powerAt line' time = 0 := by
  by_cases hinside : time < stop
  · exact h.rests time hstart hinside htime
  · have hend : stop ∈ line'.keys := by
      rw [OrderedMap.mem_keys_iff_get?, h.ends]
      cases line.get? stop with
      | none => exact ⟨0, rfl⟩
      | some v => exact ⟨v, rfl⟩
    obtain ⟨j, hstop, hj, hget, -⟩ := exists_entry hend (Int.not_lt.1 hinside)
    exact h.restsSince htime hrests j _ hstop hj hget

/-- Where the window is not in force the power is what it was. -/
theorem powerAt_of_not_inForce (h : line.PlannedOver line' start stop first)
    (hforce : ¬ line.InForce start stop time) : powerAt line' time = powerAt line time := by
  rw [InForce, not_and_not_right] at hforce
  by_cases hstart : start ≤ time
  · obtain ⟨j, hj, hstop, hjt⟩ := hforce hstart
    rw [powerAt, powerAt, OrderedMap.floorValue?_congr_from hj hjt fun k hk _ =>
      h.get?_from_setpoint hj hstop hk]
  · exact powerAt_congr fun j hj => h.outside j (.inl (by omega))

theorem powerAt_stays_zero (h : line.PlannedOver line' start stop first) (htime : time < first)
    (hzero : powerAt line time = 0) : powerAt line' time = 0 := by
  by_cases hforce : line.InForce start stop time
  · exact h.powerAt_eq_zero htime hforce.1 hforce.restsSince
  · rw [h.powerAt_of_not_inForce hforce, hzero]

/-- A window that is not in force leaves the setpoints that make others give way. -/
theorem setBetween (h : line.PlannedOver line' start stop first)
    (hforce : ¬ line.InForce start stop time) {since : Int} (hset : line.SetBetween since time) :
    line'.SetBetween since time := by
  rw [InForce, not_and_not_right] at hforce
  obtain ⟨j, hj, hsince, hjt⟩ := hset
  by_cases hstart : start ≤ time
  · -- The later one of two setpoints is not before the end of the window.
    obtain ⟨i, hi, hstop, hit⟩ := hforce hstart
    rcases Int.le_total i j with hij | hji
    · exact ⟨j, h.mem_keys hj (by omega), hsince, hjt⟩
    · exact ⟨i, h.mem_keys hi hstop, by omega, hit⟩
  · refine ⟨j, ?_, hsince, hjt⟩
    rw [OrderedMap.mem_keys_iff_get?, h.outside j (.inl (by omega))]
    exact OrderedMap.mem_keys_iff_get?.1 hj

end PlannedOver

/-! ## Several tasks -/

/-- Windows have been planned one after the other. -/
inductive PlannedAll (first : Int) : List (Int × Int) → PowerTimeline → PowerTimeline → Prop
  | nil {line : PowerTimeline} : PlannedAll first [] line line
  | cons {line line' line'' : PowerTimeline} {start stop : Int} {rest : List (Int × Int)}
      (h : line.PlannedOver line' start stop first) (hrest : PlannedAll first rest line' line'') :
      PlannedAll first ((start, stop) :: rest) line line''

namespace PlannedAll

variable {windows others : List (Int × Int)}

theorem append (h : PlannedAll first windows line line')
    (hothers : PlannedAll first others line' line'') :
    PlannedAll first (windows ++ others) line line'' := by
  induction h with
  | nil => exact hothers
  | cons h _ ih => exact .cons h (ih hothers)

/-- The device goes on to rest where it rests before `first`. -/
theorem powerAt_stays_zero (h : PlannedAll first windows line line') (htime : time < first)
    (hzero : powerAt line time = 0) : powerAt line' time = 0 := by
  induction h with
  | nil => exact hzero
  | cons h _ ih => exact ih (h.powerAt_stays_zero htime hzero)

theorem powerAt_eq_zero (h : PlannedAll first windows line line') (htime : time < first)
    (hmem : (start, stop) ∈ windows) (hstart : start ≤ time)
    (hrests : line.RestsSince stop time) : powerAt line' time = 0 := by
  induction h with
  | nil => cases hmem
  | cons h hrest ih =>
      rcases List.mem_cons.1 hmem with heq | hmem
      · cases heq
        exact hrest.powerAt_stays_zero htime (h.powerAt_eq_zero htime hstart hrests)
      · -- A window that comes first sets nothing but rest behind the end of this one.
        exact ih hmem (h.restsSince htime hrests)

theorem powerAt_of_not_inForce (h : PlannedAll first windows line line')
    (hforce : ∀ window ∈ windows, ¬ line.InForce window.1 window.2 time) :
    powerAt line' time = powerAt line time := by
  induction h with
  | nil => rfl
  | cons h _ ih =>
      have hhead := hforce _ List.mem_cons_self
      rw [← h.powerAt_of_not_inForce hhead]
      refine ih fun window hwindow hlater => ?_
      refine hforce window (List.mem_cons_of_mem _ hwindow) ⟨hlater.1, fun hset => ?_⟩
      exact hlater.2 (h.setBetween hhead hset)

end PlannedAll

/-- A new day is set to rest where it starts. -/
theorem plannedOver_insertNew (line : PowerTimeline) (day first : Int) :
    line.PlannedOver (line.insertNew day 0) day day first where
  outside k hk := by
    rw [OrderedMap.get?_insertNew, if_neg (by omega)]
  ends := by
    rw [OrderedMap.get?_insertNew, if_pos rfl]
  rests time hstart hstop := absurd hstop (by omega)

/-- A profile that rests before `first` and at its end, where it is scheduled. -/
theorem plannedOver_scheduledLine {p : PowerProfile} {a last : Int} (line : PowerTimeline)
    (hzero : 0 ∈ p.keys) (hkeys : ∀ k ∈ p.keys, 0 ≤ k) (hends : p.lastEntry? = some (last, 0))
    (hrests : ∀ time < first, powerAt p (time - a) = 0) :
    line.PlannedOver (write (clear line a (a + last)) a p
      fun offset => some offset = p.lastKey?) a (a + last) first := by
  obtain ⟨hget, hmax⟩ := OrderedMap.lastEntry?_eq_some_iff.1 hends
  have hlast : p.lastKey? = some last := OrderedMap.lastKey?_eq_of_lastEntry hends
  refine ⟨fun k hk => ?_, ?_, fun time hfrom huntil htime => ?_⟩
  · -- The profile has no entry outside the window.
    have hnone : p.get? (k - a) = none := by
      rw [OrderedMap.get?_eq_none_iff]
      intro hmem
      have hle := hmax _ hmem
      have hnonneg := hkeys _ hmem
      omega
    rw [get?_write_of_none hnone, get?_clear, if_neg (by omega)]
  · rw [get?_write, hget, get?_clear, if_neg (by omega)]
    simp [hlast]
  · have hshown := powerAt_scheduled line a hzero hlast (show 0 ≤ time - a by omega) (by omega)
    rw [show a + (time - a) = time by omega] at hshown
    rw [hshown]
    exact hrests time htime

end PowerTimeline

namespace DeviceState

/-! ## Planned tasks -/

section Committed

variable {s : DeviceState} {f : Flexibility} {t planned : Task} {first : Int}

/-- Scheduling a task where it is puts its plan on the timeline. -/
theorem plannedOver_withScheduled (hplan : planned.PlannedFrom first)
    (hstart : t.startingTime = planned.startingTime) (hrun : t.runningTime = planned.runningTime) :
    s.scheduledPower.PlannedOver
      (s.withScheduled f t planned.startingTime planned.power).scheduledPower
      planned.startingTime planned.stop first := by
  have hstop : t.stop = planned.startingTime + planned.runningTime := by
    rw [Task.stop, hstart, hrun]
  have hline : (s.withScheduled f t planned.startingTime planned.power).scheduledPower
      = PowerTimeline.write (PowerTimeline.clear s.scheduledPower planned.startingTime
          (planned.startingTime + planned.runningTime)) planned.startingTime
          (compress planned.power planned.runningTime)
          fun offset => some offset = (compress planned.power planned.runningTime).lastKey? := by
    simp only [withScheduled, power_rescheduled hplan.lastKey_eq, hstart, hstop]
  rw [hline]
  refine PowerTimeline.plannedOver_scheduledLine _ (zero_mem_keys_compress hplan.zero)
    (fun k hk => hplan.keys k (mem_keys_of_compress hk)) (lastEntry?_compress hplan.ends)
    fun time htime => ?_
  rw [powerAt_compress]
  exact hplan.rests time htime

/-- Correcting a task as a whole does, too. -/
theorem plannedOver_withAdapted (hplan : planned.PlannedFrom first)
    (hstart : t.startingTime = planned.startingTime) (hrun : t.runningTime = planned.runningTime)
    (hrests : t.power.lastEntry? = some (t.runningTime, 0)) :
    s.scheduledPower.PlannedOver
      (s.withAdapted f t planned.power 0 planned.runningTime).scheduledPower
      planned.startingTime planned.stop first := by
  have hfirst := hplan.firstKey_eq
  have hlast := hplan.lastKey_eq
  have hvalue : t.powerAt planned.runningTime = 0 := by
    rw [← hrun]
    exact powerAt_of_get? (OrderedMap.lastEntry?_eq_some_iff.1 hrests).1
  have hstop : t.stop = planned.stop := by
    rw [Task.stop, Task.stop, hstart, hrun]
  show s.scheduledPower.PlannedOver
    (correctedLine s.scheduledPower t planned.power 0 planned.runningTime) _ _ _
  refine ⟨fun k hk => ?_, ?_, fun time hfrom huntil htime => ?_⟩
  · simp only [Task.stop] at hk
    exact get?_correctedLine_of_outside hfirst hlast (by omega)
  · -- The correction ends with the task and with the value that the task had there.
    rw [correctedLine, hstart, hstop, Task.stop, get?_write, get?_corrected_update, if_pos rfl,
      hvalue]
    simp only [Int.le_refl, decide_true, if_true, get?_clear]
    rw [if_neg (by omega)]
  · have hin : time - planned.startingTime < planned.runningTime := by
      simp only [Task.stop] at huntil
      omega
    have hstart' : t.startingTime + (time - planned.startingTime) = time := by omega
    calc PowerProfile.powerAt
          (correctedLine s.scheduledPower t planned.power 0 planned.runningTime) time
        = PowerProfile.powerAt (corrected t planned.power 0 planned.runningTime).2
            (time - planned.startingTime) := by
          rw [← powerAt_correctedLine_of_inside hfirst (by omega) hin, hstart']
      _ = planned.powerAt (time - planned.startingTime) :=
          powerAt_corrected_of_inside hfirst (by omega) hin
      _ = 0 := hplan.rests time htime

/-! ## Requests -/

/-- `planned` is a plan from `first` on for a task that the device has as it was planned; the
    length of a task that ends before it starts is not one of a profile. -/
structure Expects (s : DeviceState) (first : Int) (planned : Task) : Prop where
  task : ∃ t, s.tasks.get? planned.flexibilityId = some t ∧
    t.startingTime = planned.startingTime ∧ t.runningTime = planned.runningTime
  plan : 0 ≤ planned.runningTime → planned.runningTime ≤ Quantity.greatest →
    planned.PlannedFrom first

/-- The outcome of a request to commit `planned`: nothing if it is refused, and the plan on the
    timeline if it is taken. -/
inductive Settles (s : DeviceState) (first : Int) (planned : Task)
    (outcome : SchedulingResult × DeviceState) : Prop
  | refused (hanswer : outcome.1 ≠ .ok) (hsame : outcome.2 = s)
  | taken (hanswer : outcome.1 = .ok) (hkept : s.KeepsTasks outcome.2)
      (hline : s.scheduledPower.PlannedOver outcome.2.scheduledPower planned.startingTime
        planned.stop first)

variable {s' : DeviceState}

theorem Expects.of_keepsTasks (h : s.Expects first planned) (hkept : s.KeepsTasks s') :
    s'.Expects first planned := by
  obtain ⟨t, ht, hstart, hrun⟩ := h.task
  obtain ⟨t', ht', hstart', hrun'⟩ := hkept _ t ht
  exact ⟨⟨t', ht', hstart'.trans hstart, hrun'.trans hrun⟩, h.plan⟩

/-- Another task in place of one that starts and lasts as it does. -/
theorem keepsTasks_insert {k : Int} {t : Task} (ht : s.tasks.get? k = some t) (t' : Task)
    (hstart : t'.startingTime = t.startingTime) (hrun : t'.runningTime = t.runningTime)
    (htasks : s'.tasks = s.tasks.insert k t') : s.KeepsTasks s' := by
  intro j u hu
  rw [htasks, OrderedMap.get?_insert]
  by_cases hj : j = k
  · rw [hj, ht, Option.some.injEq] at hu
    rw [if_pos hj, ← hu]
    exact ⟨t', rfl, hstart, hrun⟩
  · rw [if_neg hj]
    exact ⟨u, hu, rfl, rfl⟩

/-- The pair that a plan is for. -/
theorem Expects.pair (h : s.Holds SettledPair) (hexpects : s.Expects first planned)
    (hf : s.flexibilities.get? planned.flexibilityId = some f)
    (ht : s.tasks.get? f.taskId = some t) :
    SettledPair planned.flexibilityId f t ∧ t.startingTime = planned.startingTime ∧
      t.runningTime = planned.runningTime := by
  obtain ⟨u, hu, hstart, hrun⟩ := hexpects.task
  obtain ⟨t', ht', hpair⟩ := h.paired.of_flexibility hf
  rw [hpair.assigned, hu, Option.some.injEq] at ht
  rw [hu, Option.some.injEq] at ht'
  subst ht ht'
  exact ⟨hpair, hstart, hrun⟩

/-- If a profile that starts with the task fits, the plan has the length of a profile. -/
theorem Expects.plannedFrom (hexpects : s.Expects first planned)
    (hpair : SettledPair planned.flexibilityId f t) (hrun : t.runningTime = planned.runningTime)
    (hwell : WellFormed f t) : planned.PlannedFrom first := by
  have hlasting := hwell.lasting
  have hinTime := hwell.inTime
  have hnarrow := hpair.narrow
  exact hexpects.plan (by omega) (by omega)

theorem Expects.schedule (h : s.Holds SettledPair) (hexpects : s.Expects first planned)
    (now : Int) : s.Settles first planned
      (s.schedule planned.flexibilityId planned.startingTime planned.power now) := by
  rcases s.schedule_cases planned.flexibilityId planned.startingTime planned.power now with
    ⟨hrefused, hsame⟩ | ⟨f, t, hf, ht, -, hfits, heq⟩
  · exact .refused hrefused hsame
  · obtain ⟨hpair, hstart, hrun⟩ := hexpects.pair h hf ht
    have hwell : WellFormed f t := hpair.wellFormed (hstart.symm ▸ hfits)
    have hplan := hexpects.plannedFrom hpair hrun hwell
    -- The profile is as long as the task was.
    have hlength : (rescheduled t planned.startingTime planned.power).runningTime
        = t.runningTime := by
      rw [(hfits.rescheduled hwell.ends).1, Task.stop, hstart]
      omega
    have hkept : s.KeepsTasks (s.withScheduled f t planned.startingTime planned.power) :=
      keepsTasks_insert ht (rescheduled t planned.startingTime planned.power) hstart.symm
        hlength rfl
    rw [heq]
    exact .taken rfl hkept (plannedOver_withScheduled hplan hstart hrun)

theorem Expects.adapt (h : s.Holds SettledPair) (hexpects : s.Expects first planned) :
    s.Settles first planned (s.adapt planned.flexibilityId planned.power) := by
  rcases s.adapt_cases planned.flexibilityId planned.power with
    ⟨hrefused, hsame⟩ | ⟨f, t, begins, last, hf, -, ht, hbegins, hlast, hfits, heq⟩
  · exact .refused hrefused hsame
  · obtain ⟨hpair, hstart, hrun⟩ := hexpects.pair h hf ht
    have hwell : WellFormed f t := hpair.wellFormed hfits
    have hplan := hexpects.plannedFrom hpair hrun hwell
    -- A plan corrects its task from the start to the end.
    rw [hplan.firstKey_eq, Option.some.injEq] at hbegins
    rw [hplan.lastKey_eq, Option.some.injEq] at hlast
    subst hbegins hlast
    rw [heq]
    have hkept : s.KeepsTasks (s.withAdapted f t planned.power 0 planned.runningTime) :=
      keepsTasks_insert ht (Task.compress
        { t with power := (corrected t planned.power 0 planned.runningTime).2 }) rfl rfl rfl
    exact .taken rfl hkept (plannedOver_withAdapted hplan hstart hrun hwell.rests)

end Committed

/-! ## New days -/

section Days

variable {P : Int → Flexibility → Task → Prop} {allowed : DeviceOperation → Prop}
  {s s' : DeviceState} {device : DeviceId} {start stop now stored : Int} {zone : Zone}
  {c : DeviceConfig}

/-- A day is set to rest at its start, if it is created. -/
theorem plannedAll_ensureDay (s : DeviceState) (time : Int) (stopIncluded : Bool)
    (now stored : Int) (zone : Zone) (c : DeviceConfig) (first : Int) :
    ∃ days : List Int,
      (∀ k, k ∈ (s.ensureDay time stopIncluded now stored zone c).2.scheduledPower.keys ↔
        k ∈ days ∨ k ∈ s.scheduledPower.keys) ∧
      PowerTimeline.PlannedAll first (days.map fun day => (day, day)) s.scheduledPower
        (s.ensureDay time stopIncluded now stored zone c).2.scheduledPower := by
  rcases s.ensureDay_cases time stopIncluded now stored zone c with
    ⟨k, t, -, -, heq⟩ | ⟨energy, heq⟩
  · rw [heq]
    exact ⟨[], by simp, .nil⟩
  · rw [heq]
    refine ⟨[Calendar.startOfDay zone time], fun k => ?_,
      .cons (PowerTimeline.plannedOver_insertNew ..) .nil⟩
    rw [List.mem_singleton]
    exact OrderedMap.mem_keys_insertNew

/-- A request sets the days that it creates to rest at their start, and nothing else. -/
theorem plannedAll_getSchedule (hinv : PairInvariant allowed P) (h : s.Holds P)
    (hop : allowed (.getSchedule device start stop now stored zone c)) {summary : ScheduleSummary}
    (hs' : s.getSchedule device start stop now stored zone c = .ok (summary, s')) (first : Int) :
    ∃ days : List Int,
      (∀ k, k ∈ s'.scheduledPower.keys ↔ k ∈ days ∨ k ∈ s.scheduledPower.keys) ∧
      PowerTimeline.PlannedAll first (days.map fun day => (day, day)) s.scheduledPower
        s'.scheduledPower := by
  have hline : s'.scheduledPower
      = (s.ensureDays start stop now stored zone c).2.scheduledPower := by
    rw [getSchedule_days hinv h hop hs']
  obtain ⟨days, hkeys, hdays⟩ := plannedAll_ensureDay s start false now stored zone c first
  obtain ⟨later, hkeys', hlater⟩ := plannedAll_ensureDay
    (s.ensureDay start false now stored zone c).2 stop true now stored zone c first
  rw [hline]
  refine ⟨days ++ later, fun k => ?_, by rw [List.map_append]; exact hdays.append hlater⟩
  rw [ensureDays, hkeys', hkeys, List.mem_append, or_assoc, or_left_comm]

end Days
end DeviceState
end SiteDispatch
