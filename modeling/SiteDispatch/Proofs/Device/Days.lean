/-
  SiteDispatch.Proofs.Device.Days

  How the tasks of a device share the days of a zone without clock changes.

  A task never leaves the day for which it was created: its end is the midnight at the
  end of that day, and it can be shortened from its start only. Tasks that run at the
  same instant are therefore tasks of one day. As long as profiles for whole days are
  scheduled a day has one task only. A task that was shortened leaves the start of its
  day uncovered, and whoever asks for that gets a second task for the same day.
-/

import SiteDispatch.Proofs.Device.Ordinary

namespace SiteDispatch

open Calendar (daySeconds startOfDay startOfNextDay)

/-! ## Days without clock changes -/

theorem Zone.offsetAt_utc (t : Int) : Zone.utc.offsetAt t = 0 := rfl

theorem startOfDay_utc (t : Int) : startOfDay Zone.utc t = t / daySeconds * daySeconds := by
  have hdivmod := Int.mul_ediv_add_emod t daySeconds
  rcases Zone.utc.startOfDay_cases t with h | ⟨h, -⟩
  · rw [Zone.offsetAt_utc, Calendar.dayNumber, Zone.localTime, Zone.offsetAt_utc] at h
    simpa using h
  · rw [h, Int.mul_comm]
    omega

theorem startOfNextDay_utc (t : Int) :
    startOfNextDay Zone.utc t = (t / daySeconds + 1) * daySeconds := by
  have hstart := startOfDay_utc t
  rcases Zone.utc.startOfNextDay_cases t with ⟨-, -, h⟩ | h
  · rw [Zone.offsetAt_utc, Calendar.dayNumber, Zone.localTime, Zone.offsetAt_utc] at h
    simpa using h
  · rw [h, hstart, Int.add_mul, Int.one_mul]

/-- Days are created on request, in UTC. -/
def DeviceOperation.InUtc : DeviceOperation → Prop
  | addDay .. => False
  | getSchedule _ _ _ _ _ zone _ => zone = Zone.utc
  | _ => True

/-- Moreover every profile that is scheduled lasts for a whole day. -/
def DeviceOperation.WholeDays : DeviceOperation → Prop
  | schedule _ _ power _ => power.lastKey? = some daySeconds
  | op => op.InUtc

theorem DeviceOperation.WholeDays.inUtc {op : DeviceOperation} (h : op.WholeDays) : op.InUtc := by
  cases op with
  | schedule => trivial
  | _ => exact h

/-- No day is created. -/
def DeviceOperation.CreatesNoDay : DeviceOperation → Prop
  | addDay .. => False
  | getSchedule .. => False
  | _ => True

namespace DeviceState

/-! ## The day of a task -/

/-- A pair for a day in UTC. -/
structure DayPair (k : Int) (f : Flexibility) (t : Task) : Prop extends OrdinaryPair k f t where
  day : f.runningTime.high = daySeconds
  midnight : f.stoppingTime.high % daySeconds = 0

/-- A pair whose task takes the whole day. -/
structure WholeDayPair (k : Int) (f : Flexibility) (t : Task) : Prop extends DayPair k f t where
  whole : t.runningTime = daySeconds

/-- A pair whose day ends where `stops` has it. -/
structure EndsAt (stops : Int → Option Int) (k : Int) (f : Flexibility) (t : Task) : Prop
    extends OrdinaryPair k f t where
  stop : stops k = some f.stoppingTime.high

theorem wholeDayPair_offeredDay {id time stored : Int} {c : DeviceConfig} (hid : 0 ≤ id) :
    WholeDayPair id
      (offeredDay id (startOfDay Zone.utc time) (startOfNextDay Zone.utc time) stored c)
      (Task.idle id id true (startOfDay Zone.utc time)
        (Quantity.low32 (startOfNextDay Zone.utc time - startOfDay Zone.utc time))) := by
  have hlength : startOfNextDay Zone.utc time - startOfDay Zone.utc time = daySeconds := by
    rw [startOfDay_utc, startOfNextDay_utc, Int.add_mul]
    omega
  have hshort : startOfNextDay Zone.utc time - startOfDay Zone.utc time ≤ longestDay := by
    rw [hlength]
    decide
  have hforward : startOfDay Zone.utc time ≤ startOfNextDay Zone.utc time := by
    simp only [daySeconds] at hlength
    omega
  refine { ordinaryPair_offeredDay hid hforward hshort with day := ?_, midnight := ?_, whole := ?_ }
  · simp only [offeredDay, hlength]
    decide
  · simp only [offeredDay, startOfNextDay_utc]
    exact Int.mul_emod_left _ _
  · simp only [Task.idle, hlength]
    decide

theorem stop_newDay (id time : Int) :
    (Task.idle id id true (startOfDay Zone.utc time) (Quantity.low32
      (startOfNextDay Zone.utc time - startOfDay Zone.utc time))).stop
      = startOfNextDay Zone.utc time := by
  have hlength : startOfNextDay Zone.utc time - startOfDay Zone.utc time = daySeconds := by
    rw [startOfDay_utc, startOfNextDay_utc, Int.add_mul]
    omega
  have hlow : Quantity.low32 daySeconds = daySeconds := by decide
  rw [hlength, hlow, ← hlength, Task.stop]
  simp only [Task.idle]
  omega

/-- A task stays in its day. -/
theorem dayInvariant : PairInvariant DeviceOperation.InUtc DayPair where
  linked h := h.toLinked
  newDay _ hday := hday.elim
  localDay hzone _ energy hid := by
    obtain rfl : _ = Zone.utc := hzone
    exact (wholeDayPair_offeredDay hid).toDayPair
  corridors _ _ h := { h with }
  scheduled h _ hfits :=
    { h.toOrdinaryPair.scheduled hfits with day := h.day, midnight := h.midnight }
  adapted h hfits := { h.toOrdinaryPair.adapted hfits with day := h.day, midnight := h.midnight }
  rested h := { ordinaryInvariant.rested h.toOrdinaryPair with day := h.day, midnight := h.midnight }
  repaired h hcovers :=
    { h.toOrdinaryPair.repaired hcovers with day := h.day, midnight := h.midnight }
  compressed h :=
    { ordinaryInvariant.compressed h.toOrdinaryPair with day := h.day, midnight := h.midnight }

/-- As long as profiles for whole days are scheduled, a task takes its whole day. -/
theorem wholeDayInvariant : PairInvariant DeviceOperation.WholeDays WholeDayPair where
  linked h := h.toLinked
  newDay _ hday := hday.elim
  localDay hzone _ energy hid := by
    obtain rfl : _ = Zone.utc := hzone
    exact wholeDayPair_offeredDay hid
  corridors _ _ h := { h with }
  scheduled {k f t id startingTime power now} h hop hfits := by
    have hday := dayInvariant.scheduled h.toDayPair
      (show DeviceOperation.InUtc (.schedule id startingTime power now) from trivial) hfits
    have hlast : power.lastKey? = some daySeconds := hop
    refine { hday with whole := ?_ }
    simp only [rescheduled, Task.compress, hlast, Option.getD_some]
  adapted h hfits := { dayInvariant.adapted h.toDayPair hfits with whole := h.whole }
  rested h := { dayInvariant.rested h.toDayPair with whole := h.whole }
  repaired h hcovers := { dayInvariant.repaired h.toDayPair hcovers with whole := h.whole }
  compressed h := { dayInvariant.compressed h.toDayPair with whole := h.whole }

/-- What creates no day moves no end. -/
theorem endsAtInvariant (stops : Int → Option Int) :
    PairInvariant DeviceOperation.CreatesNoDay (EndsAt stops) where
  linked h := h.toLinked
  newDay _ hday := hday.elim
  localDay hday := hday.elim
  corridors _ _ h := { h with }
  scheduled h _ hfits := { h.toOrdinaryPair.scheduled hfits with stop := h.stop }
  adapted h hfits := { h.toOrdinaryPair.adapted hfits with stop := h.stop }
  rested h := { ordinaryInvariant.rested h.toOrdinaryPair with stop := h.stop }
  repaired h hcovers := { h.toOrdinaryPair.repaired hcovers with stop := h.stop }
  compressed h := { ordinaryInvariant.compressed h.toOrdinaryPair with stop := h.stop }

section Days

variable {s : DeviceState} {k time : Int} {f : Flexibility} {t : Task}

/-- The day of a task is that of any instant at which it runs. -/
theorem DayPair.stop_eq (h : DayPair k f t) (hruns : t.isRunning time) :
    t.stop = (time / daySeconds + 1) * daySeconds := by
  have hlength := h.inTime
  have hmidnight := h.midnight
  rw [h.day] at hlength
  rw [h.ends] at hmidnight
  rw [Task.isRunning_iff] at hruns
  simp only [Task.stop, daySeconds] at *
  omega

/-- A task that takes its whole day covers the start of it. -/
theorem WholeDayPair.covers_start (h : WholeDayPair k f t)
    (hstop : t.stop = startOfNextDay Zone.utc time) :
    covers (startOfDay Zone.utc time) false t := by
  have hwhole := h.whole
  rw [startOfNextDay_utc] at hstop
  rw [covers_iff, startOfDay_utc]
  simp only [Task.stop, daySeconds] at *
  omega

/-- Tasks have the ends they had before, unless a day was created. -/
theorem exists_task_before (h : s.Holds OrdinaryPair) {op : DeviceOperation}
    (hop : op.CreatesNoDay) (ht : (op.perform s).tasks.get? k = some t) :
    ∃ u, s.tasks.get? k = some u ∧ u.stop = t.stop := by
  -- The ends before the operation are what the operation has to keep.
  have hbefore : s.Holds
      (EndsAt fun j => (s.flexibilities.get? j).map (·.stoppingTime.high)) := by
    refine ⟨h.counter, fun j => ?_⟩
    rcases h.paired j with hnone | ⟨f, u, hf, hu, hpair⟩
    · exact .inl hnone
    · exact .inr ⟨f, u, hf, hu, { hpair with stop := by rw [hf]; rfl }⟩
  obtain ⟨f', -, hpair'⟩ := (hbefore.perform (endsAtInvariant _) hop).paired.of_task ht
  obtain ⟨f, hf, hstop⟩ := Option.map_eq_some_iff.1 hpair'.stop
  obtain ⟨u, hu, hpair⟩ := h.paired.of_flexibility hf
  refine ⟨u, hu, ?_⟩
  rw [hpair.ends, hpair'.ends] at hstop
  exact hstop

end Days

/-! ## One task a day -/

/-- Tasks with different ids are tasks of different days. -/
def OneADay (s : DeviceState) : Prop :=
  ∀ i j t u, s.tasks.get? i = some t → s.tasks.get? j = some u → t.stop = u.stop → i = j

section OneADay

variable {s : DeviceState}

/-- A day whose start is covered is not created again. -/
theorem ensureDay_of_covered {k time : Int} {t : Task} (ht : s.tasks.get? k = some t) {zone : Zone}
    (hcovers : covers (startOfDay zone time) false t) (stopIncluded : Bool) (now stored : Int)
    (c : DeviceConfig) : (s.ensureDay time stopIncluded now stored zone c).2 = s := by
  rw [ensureDay]
  cases hid : s.taskIdAt? time stopIncluded with
  | some id => rfl
  | none =>
      obtain ⟨id, hstart⟩ : ∃ id, s.taskIdAt? (startOfDay zone time) false = some id := by
        rw [← Option.isSome_iff_exists, taskIdAt?, Option.isSome_map, List.find?_isSome]
        exact ⟨t, OrderedMap.mem_values_iff_get?.2 ⟨k, ht⟩, hcovers⟩
      simp [addDay, hstart]

/-- A day is created only if no task ends with it. -/
theorem OneADay.ensureDay (h : s.Holds WholeDayPair) (hone : s.OneADay) (time : Int)
    (stopIncluded : Bool) (now stored : Int) (c : DeviceConfig) :
    (s.ensureDay time stopIncluded now stored Zone.utc c).2.OneADay := by
  by_cases hcovered : ∃ k t, s.tasks.get? k = some t ∧ covers (startOfDay Zone.utc time) false t
  · obtain ⟨k, t, ht, hcovers⟩ := hcovered
    rw [ensureDay_of_covered ht hcovers]
    exact hone
  · rcases s.ensureDay_cases time stopIncluded now stored Zone.utc c with
      ⟨k, t, -, -, heq⟩ | ⟨energy, heq⟩
    · rw [heq]
      exact hone
    · have hnew := stop_newDay s.nextId time
      have hother : ∀ k t, s.tasks.get? k = some t → t.stop ≠ startOfNextDay Zone.utc time := by
        intro k t ht hstop
        obtain ⟨f, -, hpair⟩ := h.paired.of_task ht
        exact hcovered ⟨k, t, ht, hpair.covers_start hstop⟩
      rw [heq]
      intro i j t u hi hj hstop
      simp only [withDay, OrderedMap.get?_insert] at hi hj
      split_ifs at hi hj with hi' hj' hj'
      · rw [hi', hj']
      · cases hi
        exact absurd (hstop.symm.trans hnew) (hother j u hj)
      · cases hj
        exact absurd (hstop.trans hnew) (hother i t hi)
      · exact hone i j t u hi hj hstop

/-- One operation, after which every day still has one task. -/
theorem OneADay.perform (h : s.Holds WholeDayPair) (hone : s.OneADay) {op : DeviceOperation}
    (hop : op.WholeDays) : (op.perform s).OneADay := by
  by_cases hday : op.CreatesNoDay
  · -- The tasks of two ids had the same ends before.
    have hordinary : s.Holds OrdinaryPair := h.mono fun hpair => hpair.toOrdinaryPair
    intro i j t u ht hu hstop
    obtain ⟨t', ht', hstop'⟩ := exists_task_before hordinary hday ht
    obtain ⟨u', hu', hstop''⟩ := exists_task_before hordinary hday hu
    exact hone i j t' u' ht' hu' (by rw [hstop', hstop, hstop''])
  · cases op with
    | addDay => exact hop.elim
    | getSchedule device start stop now stored zone c =>
        have hzone : zone = Zone.utc := hop
        subst hzone
        simp only [DeviceOperation.perform]
        split
        · -- Two days are ensured; deriving corridors anew leaves the tasks alone.
          rename_i summary s' hs'
          obtain ⟨-, -, -, -, hrefresh⟩ := getSchedule_eq_ok hs'
          have hensured := hone.ensureDay h start false now stored c
          have hheld := h.ensureDay wholeDayInvariant hop (.inl rfl) false
          have hnamed := (h.ensureDays wholeDayInvariant hop).named wholeDayInvariant
          obtain ⟨heq, -, -⟩ := refreshAll_spec hrefresh hnamed
          rw [heq]
          exact hensured.ensureDay hheld stop true now stored c
        · exact hone
    | _ => exact absurd trivial hday

end OneADay

/-- Every day has one task as long as every profile that is scheduled lasts for a whole day. -/
theorem oneADay_of_reachable {s : DeviceState} (hs : Reachable DeviceOperation.WholeDays s) :
    s.OneADay := by
  induction hs with
  | fresh => exact fun i _ t _ hi => by cases hi
  | step hs hop ih => exact ih.perform (hs.holds wholeDayInvariant) hop

/-- In UTC tasks that run at the same instant are tasks of the same day, whatever has been
    asked of the device. As long as every profile that is scheduled lasts for a whole day,
    they are one task: no two tasks overlap. -/
theorem overlapping_tasks_share_day {s : DeviceState} (hs : Reachable DeviceOperation.InUtc s)
    {i j : Int} {t u : Task} {time : Int} (ht : s.tasks.get? i = some t)
    (hu : s.tasks.get? j = some u) (htime : t.isRunning time) (hutime : u.isRunning time) :
    t.stop = u.stop ∧ (Reachable DeviceOperation.WholeDays s → i = j) := by
  have hpaired := (hs.holds dayInvariant).paired
  obtain ⟨f, -, hpair⟩ := hpaired.of_task ht
  obtain ⟨g, -, hpair'⟩ := hpaired.of_task hu
  have hstop : t.stop = u.stop := by
    rw [hpair.stop_eq htime, hpair'.stop_eq hutime]
  exact ⟨hstop, fun hwhole => oneADay_of_reachable hwhole i j t u ht hu hstop⟩

/-- A day that is offered twice: the profile scheduled for its task starts at noon, and then
    the schedule from midnight on is asked for again. -/
def dayOfferedTwice : DeviceState :=
  [.getSchedule ⟨1⟩ 86400 86410 0 3000 Zone.utc ⟨⟨1⟩, 6000, 10, 90, 2000, 2000, 100⟩,
   .schedule 0 129600 (.ofList [(0, 0), (43200, 0)]) 0,
   .getSchedule ⟨1⟩ 86400 86410 0 3000 Zone.utc ⟨⟨1⟩, 6000, 10, 90, 2000, 2000, 100⟩].foldl
    DeviceOperation.perform .fresh

theorem reachable_dayOfferedTwice : Reachable DeviceOperation.InUtc dayOfferedTwice :=
  Reachable.fresh.foldl _ (by simp [DeviceOperation.InUtc])

theorem tasks_dayOfferedTwice :
    dayOfferedTwice.tasks =
      .ofList [(0, Task.idle 0 0 true 129600 43200), (1, Task.idle 1 1 true 86400 86400)] := by
  decide +kernel

/-- Tasks of one day do overlap: a second task for the whole day has been created although
    the first one runs from noon to midnight. -/
theorem two_tasks_of_one_day :
    ∃ s t u, Reachable DeviceOperation.InUtc s ∧ s.tasks.get? 0 = some t ∧
      s.tasks.get? 1 = some u ∧ t.isRunning 129600 ∧ u.isRunning 129600 := by
  refine ⟨dayOfferedTwice, Task.idle 0 0 true 129600 43200, Task.idle 1 1 true 86400 86400,
    reachable_dayOfferedTwice, ?_, ?_, by decide, by decide⟩
  · rw [tasks_dayOfferedTwice]
    rfl
  · rw [tasks_dayOfferedTwice]
    rfl

/-- Two whole days, offered at once. -/
def twoWholeDays : DeviceState := DeviceOperation.perform .fresh
  (.getSchedule ⟨1⟩ 80000 90000 0 3000 Zone.utc ⟨⟨1⟩, 6000, 10, 90, 2000, 2000, 100⟩)

theorem reachable_twoWholeDays : Reachable DeviceOperation.WholeDays twoWholeDays :=
  .step .fresh rfl

/-- Two tasks that run in the afternoon have the same end. Of two whole days that follow
    each other only the second runs in the second night. -/
theorem overlapping_tasks_share_day_afternoon :
    (∃ t u, dayOfferedTwice.tasks.get? 0 = some t ∧ dayOfferedTwice.tasks.get? 1 = some u ∧
      t.isRunning 129600 ∧ u.isRunning 129600 ∧ t.stop = u.stop) ∧
    (∃ t u, twoWholeDays.tasks.get? 0 = some t ∧ twoWholeDays.tasks.get? 1 = some u ∧
      u.isRunning 90000 ∧ ¬ t.isRunning 90000) := by
  constructor
  · have ht : dayOfferedTwice.tasks.get? 0 = some (Task.idle 0 0 true 129600 43200) := by
      rw [tasks_dayOfferedTwice]
      rfl
    have hu : dayOfferedTwice.tasks.get? 1 = some (Task.idle 1 1 true 86400 86400) := by
      rw [tasks_dayOfferedTwice]
      rfl
    have htime : (Task.idle 0 0 true 129600 43200).isRunning 129600 := by decide
    have hutime : (Task.idle 1 1 true 86400 86400).isRunning 129600 := by decide
    have hshare := overlapping_tasks_share_day reachable_dayOfferedTwice ht hu htime hutime
    exact ⟨_, _, ht, hu, htime, hutime, hshare.1⟩
  · have ht : twoWholeDays.tasks.get? 0 = some (Task.idle 0 0 true 0 86400) := by decide +kernel
    have hu : twoWholeDays.tasks.get? 1 = some (Task.idle 1 1 true 86400 86400) := by
      decide +kernel
    have hutime : (Task.idle 1 1 true 86400 86400).isRunning 90000 := by decide
    refine ⟨_, _, ht, hu, hutime, fun htime => ?_⟩
    have hshare := overlapping_tasks_share_day
      (reachable_twoWholeDays.mono fun _ => DeviceOperation.WholeDays.inUtc) ht hu htime hutime
    exact absurd (hshare.2 reachable_twoWholeDays) (by decide)

end DeviceState
end SiteDispatch
