/-
  SiteDispatch.Proofs.Device.Coverage

  Which part of a requested window the listed tasks run in.

  A request creates the days of the two ends of its window and lists their tasks. The first runs
  from the start of the window to the end of that day, the last one up to the end of the window
  at least. A window of up to two days can take in a day between the two, which has no task or
  one that is not listed.
-/

import SiteDispatch.Proofs.Device.Tasks

namespace SiteDispatch

open Calendar (daySeconds startOfDay startOfNextDay)

/-- Days are those of UTC, whether they are created on request or added. -/
def DeviceOperation.UtcDays : DeviceOperation → Prop
  | addDay start stop _ _ => start % daySeconds = 0 ∧ stop = start + daySeconds
  | getSchedule _ _ _ _ _ zone _ => zone = Zone.utc
  | _ => True

namespace DeviceState

/-- One of the listed tasks runs at `time`. -/
def CoveredBy (s : DeviceState) (ids : List Int) (time : Int) : Prop :=
  ∃ id ∈ ids, ∃ t, s.tasks.get? id = some t ∧ t.isRunning time

/-- Added days are as those that are created on request. -/
theorem utcDayInvariant : PairInvariant DeviceOperation.UtcDays DayPair where
  linked h := h.toLinked
  newDay {id start stop stored c} hid hday := by
    have hstart : startOfDay Zone.utc start = start := by
      have hmidnight := hday.1
      rw [startOfDay_utc]
      simp only [daySeconds] at *
      omega
    have hstop : startOfNextDay Zone.utc start = stop := by
      rw [startOfDay_utc] at hstart
      rw [startOfNextDay_utc, Int.add_mul, hstart, hday.2, Int.one_mul]
    have hpair : WholeDayPair id (offeredDay id (startOfDay Zone.utc start)
        (startOfNextDay Zone.utc start) stored c) _ := wholeDayPair_offeredDay hid
    rw [hstart, hstop] at hpair
    exact hpair.toDayPair
  localDay {device start stop now stored zone c _ _} hzone htime energy hid := by
    have hutc : DeviceOperation.InUtc (.getSchedule device start stop now stored zone c) := hzone
    exact dayInvariant.localDay hutc htime energy hid
  corridors power energy h := dayInvariant.corridors power energy h
  scheduled {_ _ _ id startingTime power now} h _ hfits := by
    have hany : DeviceOperation.InUtc (.schedule id startingTime power now) := trivial
    exact dayInvariant.scheduled h hany hfits
  adapted h hfits := dayInvariant.adapted h hfits
  rested h := dayInvariant.rested h
  repaired h hcovers := dayInvariant.repaired h hcovers
  compressed h := dayInvariant.compressed h

section Coverage

variable {s : DeviceState} {device : DeviceId} {start stop now stored : Int} {zone : Zone}
  {c : DeviceConfig}

/-! ## The answer to a request -/

/-- Corridors can be derived for every task that does not end before it starts. -/
theorem exists_refresh {task : Task} (hlasting : 0 ≤ task.runningTime) (now stored : Int)
    (c : DeviceConfig) : ∃ power energy,
      s.refresh task now stored c = .ok (s.setCorridors task.flexibilityId power energy) := by
  have hclamp : ∀ x, Halt.clamp 0 task.runningTime x = .ok (max 0 (min x task.runningTime)) := by
    intro x
    rw [Halt.clamp, if_neg (by omega)]
  rw [refresh]
  split
  · rw [refreshStarted, hclamp]
    exact ⟨_, _, rfl⟩
  · rw [refreshFuture, hclamp]
    split
    · exact ⟨_, _, rfl⟩
    · exact ⟨_, _, rfl⟩

theorem exists_refreshAll {ids : List Int} (hlasting : ∀ id ∈ ids, ∀ t,
    s.tasks.get? id = some t → 0 ≤ t.runningTime) (now stored : Int) (c : DeviceConfig) :
    ∃ s', refreshAll now stored c ids s = .ok s' ∧ s'.tasks = s.tasks := by
  induction ids generalizing s with
  | nil => exact ⟨s, rfl, rfl⟩
  | cons id rest ih =>
      have hrest : ∀ j ∈ rest, ∀ t, s.tasks.get? j = some t → 0 ≤ t.runningTime :=
        fun j hj => hlasting j (List.mem_cons_of_mem _ hj)
      rw [refreshAll]
      cases hid : s.tasks.get? id with
      | none => exact ih hrest
      | some task =>
          obtain ⟨power, energy, hrefresh⟩ :=
            exists_refresh (hlasting id List.mem_cons_self task hid) now stored c (s := s)
          -- New corridors leave the tasks as they are.
          obtain ⟨s', hs', htasks⟩ := ih (s := s.setCorridors task.flexibilityId power energy) hrest
          exact ⟨s', bind_eq_ok_iff.2 ⟨_, hrefresh, hs'⟩, htasks⟩

/-- A request for a window that is not too long is answered if no listed task ends before it
    starts. -/
theorem exists_getSchedule (device : DeviceId) (hle : start ≤ stop) (hrange : stop - start ≤ maxScheduleRange)
    (hlasting : ∀ id ∈ (s.ensureDays start stop now stored zone c).1, ∀ t,
      (s.ensureDays start stop now stored zone c).2.tasks.get? id = some t →
      0 ≤ t.runningTime) :
    ∃ summary s', s.getSchedule device start stop now stored zone c = .ok (summary, s') ∧
      summary.taskIds = (s.ensureDays start stop now stored zone c).1 ∧
      s'.tasks = (s.ensureDays start stop now stored zone c).2.tasks := by
  obtain ⟨s', hs', htasks⟩ := exists_refreshAll hlasting now stored c
  simp only [ensureDays] at hs'
  rw [getSchedule, if_neg (by omega), if_neg (by omega)]
  simp only [hs']
  exact ⟨_, _, rfl, rfl, htasks⟩

/-! ## The listed tasks -/

/-- The task that is listed for an instant has started by then, and ends with the day of the
    instant, or with the instant itself where that is asked for. -/
theorem Holds.ensureDay_covers (h : s.Holds DayPair) (time : Int) (stopIncluded : Bool)
    (now stored : Int) (c : DeviceConfig) :
    ∃ t, (s.ensureDay time stopIncluded now stored Zone.utc c).2.tasks.get?
        (s.ensureDay time stopIncluded now stored Zone.utc c).1 = some t ∧
      t.startingTime ≤ time ∧
      (t.stop = startOfNextDay Zone.utc time ∨ (stopIncluded = true ∧ t.stop = time)) := by
  have hday : startOfDay Zone.utc time ≤ time ∧
      startOfDay Zone.utc time / daySeconds = time / daySeconds := by
    rw [startOfDay_utc]
    simp only [daySeconds]
    omega
  rcases s.ensureDay_cases time stopIncluded now stored Zone.utc c with
    ⟨k, t, ht, hcovers, heq⟩ | ⟨energy, heq⟩
  · obtain ⟨f, -, hpair⟩ := h.paired.of_task ht
    rw [heq, hpair.task]
    -- The task runs at the instant, ends with it, or runs at the start of its day.
    rcases hcovers with hcovers | hcovers
    · obtain ⟨hstart, hbefore | ⟨hincluded, hend⟩⟩ := covers_iff.1 hcovers
      · have hstop := hpair.stop_eq (Task.isRunning_iff.2 ⟨hstart, hbefore⟩)
        exact ⟨t, ht, hstart, .inl (by rw [hstop, startOfNextDay_utc])⟩
      · exact ⟨t, ht, hstart, .inr ⟨hincluded, hend.symm⟩⟩
    · obtain ⟨hstart, hbefore | ⟨hfalse, -⟩⟩ := covers_iff.1 hcovers
      · have hstop := hpair.stop_eq (Task.isRunning_iff.2 ⟨hstart, hbefore⟩)
        rw [hday.2] at hstop
        exact ⟨t, ht, by omega, .inl (by rw [hstop, startOfNextDay_utc])⟩
      · cases hfalse
  · rw [heq]
    exact ⟨_, OrderedMap.get?_insert_self _ _ _, hday.1, .inl (stop_newDay s.nextId time)⟩

/-- The tasks of both ends are listed, and no others. -/
theorem mem_ensureDays {id : Int} :
    id ∈ (s.ensureDays start stop now stored zone c).1 ↔
      id = (s.ensureDay start false now stored zone c).1 ∨
      id = ((s.ensureDay start false now stored zone c).2.ensureDay stop true now stored zone c).1 := by
  simp only [ensureDays]
  split
  · rename_i hsame
    rw [hsame, List.mem_singleton, or_self]
  · simp

/-- The listed tasks are `first` and `last`: one runs from `start` to the end of its day, the other
    up to `stop`. -/
structure Spans (s : DeviceState) (ids : List Int) (start stop : Int) (first last : Task) :
    Prop where
  listed : ∀ t, (∃ id ∈ ids, s.tasks.get? id = some t) ↔ t = first ∨ t = last
  begins : first.startingTime ≤ start
  dayEnd : first.stop = startOfNextDay Zone.utc start
  started : last.startingTime ≤ stop
  ends : last.stop = startOfNextDay Zone.utc stop ∨ last.stop = stop

theorem Spans.stop_le {ids : List Int} {first last : Task} (h : s.Spans ids start stop first last) :
    stop ≤ last.stop := by
  rcases h.ends with hend | hend
  · rw [hend, startOfNextDay_utc]
    simp only [daySeconds]
    omega
  · omega

/-- Between the end of the first day and the start of the last task nothing that is listed
    runs. -/
theorem Spans.coveredBy_iff {ids : List Int} {first last : Task}
    (h : s.Spans ids start stop first last) {time : Int} (hfrom : start ≤ time)
    (huntil : time < stop) :
    s.CoveredBy ids time ↔
      time < startOfNextDay Zone.utc start ∨ last.startingTime ≤ time := by
  have hbegins := h.begins
  have hstop := h.stop_le
  rw [← h.dayEnd]
  constructor
  · rintro ⟨id, hid, t, ht, hruns⟩
    rw [Task.isRunning_iff] at hruns
    rcases (h.listed t).1 ⟨id, hid, ht⟩ with rfl | rfl
    · exact .inl hruns.2
    · exact .inr hruns.1
  · rintro (hbefore | hafter)
    · obtain ⟨id, hid, ht⟩ := (h.listed first).2 (.inl rfl)
      exact ⟨id, hid, first, ht, Task.isRunning_iff.2 ⟨by omega, hbefore⟩⟩
    · obtain ⟨id, hid, ht⟩ := (h.listed last).2 (.inr rfl)
      exact ⟨id, hid, last, ht, Task.isRunning_iff.2 ⟨hafter, by omega⟩⟩

/-- At most one task comes with an end of a window. -/
theorem size_ensureDay_le (s : DeviceState) (time : Int) (stopIncluded : Bool)
    (now stored : Int) (zone : Zone) (c : DeviceConfig) :
    (s.ensureDay time stopIncluded now stored zone c).2.tasks.size ≤ s.tasks.size + 1 := by
  rcases s.ensureDay_cases time stopIncluded now stored zone c with
    ⟨k, t, -, -, heq⟩ | ⟨energy, heq⟩
  · rw [heq]
    exact Nat.le_succ _
  · rw [heq]
    exact OrderedMap.size_insert_le _ _ _

/-- Both ends of a window get a task, and the day of its end does not replace that of its start. -/
theorem Holds.spans_ensureDays (h : s.Holds DayPair) (hroom : s.tasks.size + 1 < 2 ^ 31)
    (start stop now stored : Int) (c : DeviceConfig) :
    ∃ first last, (s.ensureDays start stop now stored Zone.utc c).2.Spans
      (s.ensureDays start stop now stored Zone.utc c).1 start stop first last := by
  have hutc : DeviceOperation.UtcDays (.getSchedule ⟨0⟩ start stop now stored Zone.utc c) := rfl
  have h₁ := h.ensureDay utcDayInvariant hutc (.inl rfl) false
  obtain ⟨first, hfirst, hbegins, hdayEnd⟩ := h.ensureDay_covers start false now stored c
  obtain ⟨last, hlast, hstarted, hends⟩ := h₁.ensureDay_covers stop true now stored c
  have hroom₁ : ((s.ensureDay start false now stored Zone.utc c).2.tasks.size : Int)
      ≤ Quantity.greatest := by
    have hsize := size_ensureDay_le s start false now stored Zone.utc c
    simp only [Quantity.greatest]
    omega
  have hkept : (s.ensureDay start false now stored Zone.utc c).2.KeepsTasks
      (s.ensureDays start stop now stored Zone.utc c).2 := h₁.keepsTasks_ensureDay hroom₁
  obtain ⟨first', hfirst', hsame, hsame'⟩ := hkept _ first hfirst
  refine ⟨first', last, fun t => ⟨?_, ?_⟩, by omega, ?_, hstarted, hends.imp_right And.right⟩
  · rintro ⟨id, hid, ht⟩
    rcases mem_ensureDays.1 hid with rfl | rfl
    · exact .inl (Option.some.inj (ht.symm.trans hfirst'))
    · exact .inr (Option.some.inj (ht.symm.trans hlast))
  · rintro (rfl | rfl)
    · exact ⟨_, mem_ensureDays.2 (.inl rfl), hfirst'⟩
    · exact ⟨_, mem_ensureDays.2 (.inr rfl), hlast⟩
  · rw [Task.stop, hsame, hsame']
    exact hdayEnd.resolve_right fun hfalse => by cases hfalse.1

/-- Created days are whole ones: if all tasks take their whole day, so do those that a request
    lists. -/
theorem Holds.whole_ensureDays (h : s.Holds DayPair)
    (hwhole : ∀ k t, s.tasks.get? k = some t → t.runningTime = daySeconds)
    (start stop now stored : Int) (c : DeviceConfig) {k : Int} {t : Task}
    (ht : (s.ensureDays start stop now stored Zone.utc c).2.tasks.get? k = some t) :
    t.runningTime = daySeconds := by
  have hutc : DeviceOperation.WholeDays (.getSchedule ⟨0⟩ start stop now stored Zone.utc c) := rfl
  have hwholeDays : s.Holds WholeDayPair := by
    refine ⟨h.counter, fun k => (h.paired k).imp_right ?_⟩
    rintro ⟨f, t, hf, ht, hpair⟩
    exact ⟨f, t, hf, ht, { hpair with whole := hwhole k t ht }⟩
  obtain ⟨f, -, hpair⟩ := (hwholeDays.ensureDays wholeDayInvariant hutc).paired.of_task ht
  exact hpair.whole

/-- A last task that takes its whole day starts no more than a day before the end of the
    window, or with the day of that. -/
theorem Spans.last_startingTime_le {ids : List Int} {first last : Task}
    (h : s.Spans ids start stop first last) (hwhole : last.runningTime = daySeconds)
    (hnear : stop < startOfNextDay Zone.utc start + daySeconds) :
    last.startingTime ≤ startOfNextDay Zone.utc start := by
  have hends := h.ends
  rw [startOfNextDay_utc] at hends hnear ⊢
  simp only [Task.stop, daySeconds] at *
  omega

end Coverage

/-- In UTC a request for up to two days is answered. Its window is covered by the listed tasks up to
    the end of the day in which it starts and from the start of the last listed task on, but not
    between: it is covered as a whole if it ends with that day, and also if it ends during the
    next one and every task takes its whole day. -/
theorem getSchedule_covers_iff {s : DeviceState} (hs : Reachable DeviceOperation.UtcDays s)
    (hroom : s.tasks.size + 1 < 2 ^ 31) (device : DeviceId) {start stop : Int} (now stored : Int)
    (c : DeviceConfig) (hle : start ≤ stop) (hrange : stop - start ≤ maxScheduleRange) :
    ∃ summary s', s.getSchedule device start stop now stored Zone.utc c = .ok (summary, s') ∧
      (∃ id ∈ summary.taskIds, ∃ last, s'.tasks.get? id = some last ∧
        last.startingTime ≤ stop ∧ stop ≤ last.stop ∧
        ∀ time, start ≤ time → time < stop → (s'.CoveredBy summary.taskIds time ↔
          time < startOfNextDay Zone.utc start ∨ last.startingTime ≤ time)) ∧
      (stop ≤ startOfNextDay Zone.utc start ∨
          (stop < startOfNextDay Zone.utc start + daySeconds ∧
            ∀ k t, s.tasks.get? k = some t → t.runningTime = daySeconds) →
        ∀ time, start ≤ time → time < stop → s'.CoveredBy summary.taskIds time) := by
  have hutc : DeviceOperation.UtcDays (.getSchedule device start stop now stored Zone.utc c) := rfl
  have h : s.Holds DayPair := hs.holds utcDayInvariant
  have hensured := h.ensureDays utcDayInvariant hutc
  obtain ⟨first, last, hspans⟩ := h.spans_ensureDays hroom start stop now stored c
  have hlasting : ∀ id ∈ (s.ensureDays start stop now stored Zone.utc c).1, ∀ t,
      (s.ensureDays start stop now stored Zone.utc c).2.tasks.get? id = some t →
      0 ≤ t.runningTime := by
    intro id _ t ht
    obtain ⟨f, -, hpair⟩ := hensured.paired.of_task ht
    exact hpair.lasting
  obtain ⟨summary, s', hs', hids, htasks⟩ := exists_getSchedule device hle hrange hlasting
  -- The answer lists the tasks of the ensured days as they are.
  have hanswer : s'.Spans summary.taskIds start stop first last := by
    rw [hids]
    exact { hspans with listed := htasks.symm ▸ hspans.listed }
  obtain ⟨id, hid, hlast⟩ := (hanswer.listed last).2 (.inr rfl)
  refine ⟨summary, s', hs', ⟨id, hid, last, hlast, hanswer.started, hanswer.stop_le,
    fun time => hanswer.coveredBy_iff⟩, fun hcase time hfrom huntil => ?_⟩
  apply (hanswer.coveredBy_iff hfrom huntil).2
  rcases hcase with hday | ⟨hnear, hwhole⟩
  · exact .inl (by omega)
  · have hlastWhole := h.whole_ensureDays hwhole start stop now stored c (htasks ▸ hlast)
    have := hanswer.last_startingTime_le hlastWhole hnear
    omega

/-- Of two whole days a window from the evening of the first to the evening of the second is
    covered. -/
theorem getSchedule_covers_iff_evening :
    ∃ summary s', twoWholeDays.getSchedule ⟨1⟩ 80000 172000 0 3000 Zone.utc
        ⟨⟨1⟩, 6000, 10, 90, 2000, 2000, 100⟩ = .ok (summary, s') ∧
      ∀ time, 80000 ≤ time → time < 172000 → s'.CoveredBy summary.taskIds time := by
  have hs : Reachable DeviceOperation.UtcDays twoWholeDays := .step .fresh rfl
  have hroom : twoWholeDays.tasks.size + 1 < 2 ^ 31 := by decide +kernel
  have hwhole : ∀ k t, twoWholeDays.tasks.get? k = some t → t.runningTime = daySeconds := by
    intro k t ht
    obtain ⟨f, -, hpair⟩ := (reachable_twoWholeDays.holds wholeDayInvariant).paired.of_task ht
    exact hpair.whole
  obtain ⟨summary, s', hs', -, hcovered⟩ := getSchedule_covers_iff hs hroom ⟨1⟩ 0 3000
    ⟨⟨1⟩, 6000, 10, 90, 2000, 2000, 100⟩ (show (80000 : Int) ≤ 172000 by decide) (by decide)
  exact ⟨summary, s', hs', hcovered (.inr ⟨by decide +kernel, hwhole⟩)⟩

/-- A window of less than two days, from the noon of one day to the morning of the day after the
    next, leaves the day between uncovered. -/
theorem day_between_uncovered :
    (43200 : Int) ≤ 200000 ∧ (200000 : Int) - 43200 ≤ maxScheduleRange ∧
    ∃ summary s', fresh.getSchedule ⟨1⟩ 43200 200000 0 3000 Zone.utc
        ⟨⟨1⟩, 6000, 10, 90, 2000, 2000, 100⟩ = .ok (summary, s') ∧
      ∃ time, 43200 ≤ time ∧ time < 200000 ∧ ¬ s'.CoveredBy summary.taskIds time := by
  refine ⟨by decide, by decide, _, _, rfl, 100000, by decide, by decide, ?_⟩
  rintro ⟨id, hid, t, ht, hruns⟩
  have hresting : ∀ id ∈ [0, 1], ∀ t, (DeviceOperation.perform .fresh (.getSchedule ⟨1⟩ 43200 200000
      0 3000 Zone.utc ⟨⟨1⟩, 6000, 10, 90, 2000, 2000, 100⟩)).tasks.get? id = some t →
      t.isRunning 100000 = false := by decide +kernel
  rw [hresting id hid t ht] at hruns
  cases hruns

end DeviceState
end SiteDispatch
