/-
  SiteDispatch.Proofs.Device.Offer

  What a device offers when it is asked for its schedule.

  Asking creates days where none is covered and then derives the corridors of the
  tasks that are listed anew; nothing else changes. `Refreshed` says what the
  corridors of a task are afterwards.
-/

import SiteDispatch.Device.Offer
import SiteDispatch.Proofs.OrderedMap.Lookup

namespace SiteDispatch

/-- A computation in two steps answers if both steps do. -/
theorem bind_eq_ok_iff {ε α β : Type} {x : Except ε α} {f : α → Except ε β} {b : β} :
    x >>= f = .ok b ↔ ∃ a, x = .ok a ∧ f a = .ok b := by
  cases x with
  | error e => simp [bind, Except.bind]
  | ok a => simp [bind, Except.bind]

namespace DeviceState

/-! ## Days -/

/-- The flexibility that a new day offers. -/
def offeredDay (id start stop stored : Int) (c : DeviceConfig) : Flexibility where
  id := id
  taskId := id
  adaptable := true
  stoppingTime := ⟨stop, stop⟩
  runningTime := ⟨Quantity.low32 (stop - start), Quantity.low32 (stop - start)⟩
  powerCorridor := .singleton 0 c.powerRange
  energyCorridor := .singleton 0 (c.energyWindow stored)

/-- The state after a day has been created under `id`. -/
def withDay (s : DeviceState) (id start stop stored : Int) (c : DeviceConfig) : DeviceState :=
  { s with
    idCounter := idAfter id
    flexibilities := s.flexibilities.insert id (offeredDay id start stop stored c)
    tasks := s.tasks.insert id (Task.idle id id true start (Quantity.low32 (stop - start)))
    scheduledPower := s.scheduledPower.insertNew start 0 }

theorem covers_iff {time : Int} {stopIncluded : Bool} {t : Task} :
    covers time stopIncluded t ↔
      t.startingTime ≤ time ∧ (time < t.stop ∨ (stopIncluded = true ∧ time = t.stop)) := by
  simp [covers]

theorem taskIdAt?_eq_some {s : DeviceState} {time id : Int} {stopIncluded : Bool}
    (h : s.taskIdAt? time stopIncluded = some id) :
    ∃ k t, s.tasks.get? k = some t ∧ covers time stopIncluded t ∧ t.id = id := by
  rw [taskIdAt?, Option.map_eq_some_iff] at h
  obtain ⟨t, hfind, hid⟩ := h
  obtain ⟨k, hk⟩ := OrderedMap.mem_values_iff_get?.1 (List.mem_of_find?_eq_some hfind)
  exact ⟨k, t, hk, List.find?_some hfind, hid⟩

/-- A day is created unless its first instant is covered. -/
theorem addDay_cases (s : DeviceState) (start stop stored : Int) (c : DeviceConfig) :
    (∃ k t, s.tasks.get? k = some t ∧ covers start false t ∧
      s.addDay start stop stored c = (t.id, s)) ∨
    s.addDay start stop stored c = (s.nextId, s.withDay s.nextId start stop stored c) := by
  cases hid : s.taskIdAt? start false with
  | some id =>
      obtain ⟨k, t, hget, hcovers, rfl⟩ := taskIdAt?_eq_some hid
      exact .inl ⟨k, t, hget, hcovers, by simp [addDay, hid]⟩
  | none => exact .inr (by simp [addDay, hid, withDay, offeredDay])

/-- The local day of an instant is created unless the instant or the start of its day
    is covered. -/
theorem ensureDay_cases (s : DeviceState) (time : Int) (stopIncluded : Bool) (now stored : Int)
    (zone : Zone) (c : DeviceConfig) :
    (∃ k t, s.tasks.get? k = some t ∧
      (covers time stopIncluded t ∨ covers (Calendar.startOfDay zone time) false t) ∧
      s.ensureDay time stopIncluded now stored zone c = (t.id, s)) ∨
    ∃ energy, s.ensureDay time stopIncluded now stored zone c
      = (s.nextId, s.withDay s.nextId (Calendar.startOfDay zone time)
          (Calendar.startOfNextDay zone time) energy c) := by
  cases hid : s.taskIdAt? time stopIncluded with
  | some id =>
      obtain ⟨k, t, hget, hcovers, rfl⟩ := taskIdAt?_eq_some hid
      exact .inl ⟨k, t, hget, .inl hcovers, by simp [ensureDay, hid]⟩
  | none =>
      -- The day is created from its start, which may be covered all the same.
      have hday : s.ensureDay time stopIncluded now stored zone c
          = s.addDay (Calendar.startOfDay zone time) (Calendar.startOfNextDay zone time)
              (s.expectedEnergy now (Calendar.startOfDay zone time) stored) c := by
        simp [ensureDay, hid]
      rw [hday]
      rcases addDay_cases s (Calendar.startOfDay zone time) (Calendar.startOfNextDay zone time)
        (s.expectedEnergy now (Calendar.startOfDay zone time) stored) c with
        ⟨k, t, hget, hcovers, heq⟩ | heq
      · exact .inl ⟨k, t, hget, .inr hcovers, heq⟩
      · exact .inr ⟨_, heq⟩

/-- The days of a window do not touch a charge target. -/
theorem target_ensureDay (s : DeviceState) (time : Int) (stopIncluded : Bool) (now stored : Int)
    (zone : Zone) (c : DeviceConfig) :
    (s.ensureDay time stopIncluded now stored zone c).2.targetSoc = s.targetSoc ∧
      (s.ensureDay time stopIncluded now stored zone c).2.targetSocTime = s.targetSocTime := by
  rcases s.ensureDay_cases time stopIncluded now stored zone c with
    ⟨_, _, -, -, heq⟩ | ⟨_, heq⟩
  · rw [heq]
    exact ⟨rfl, rfl⟩
  · rw [heq]
    exact ⟨rfl, rfl⟩

theorem idAfter_nonneg {id : Int} (h : 0 ≤ id) : 0 ≤ idAfter id := by
  rw [idAfter]
  split <;> omega

theorem nextId_nonneg {s : DeviceState} (h : 0 ≤ s.idCounter) : 0 ≤ s.nextId := by
  -- The search only counts on or starts again from 0.
  have hfirst : ∀ (used : Int → Bool) (tries : Nat) (id : Int), 0 ≤ id →
      0 ≤ firstUnused used tries id := by
    intro used tries
    induction tries with
    | zero => exact fun id hid => hid
    | succ tries ih =>
        intro id hid
        rw [firstUnused]
        split
        · exact ih _ (idAfter_nonneg hid)
        · exact hid
  exact hfirst _ _ _ h

/-! ## Corridors -/

/-- Power corridor of a task of which nothing is offered before `offset`. -/
def startedPower (offset : Int) (range : Interval) : Corridor :=
  (OrderedMap.singleton 0 Interval.zero).insert offset range

/-- Energy corridor of a task of which nothing is offered before `offset`. -/
def startedEnergy (offset : Int) (window : Interval) : Corridor :=
  ((OrderedMap.singleton 0 Interval.unbounded).insert (max (offset - 1) 0)
    Interval.unbounded).insert offset window

/-- The corridors of a flexibility are those that a request at `now` derives for its
    task: a future task is bounded by the energy expected at its start, a started one
    by the energy at hand. While a charge target is active, no power is offered before it. -/
structure Refreshed (s : DeviceState) (now stored : Int) (c : DeviceConfig) (task : Task)
    (f : Flexibility) : Prop where
  futureEnergy : now < task.startingTime → f.energyCorridor = .singleton 0
    (c.energyWindow (s.expectedEnergy now task.startingTime stored))
  futurePower : now < task.startingTime → s.socTargetActive now = false →
    f.powerCorridor = .singleton 0 c.powerRange
  started : task.startingTime ≤ now → s.socTargetActive now = false →
    0 ≤ task.runningTime ∧
      f.powerCorridor = startedPower (min (now - task.startingTime) task.runningTime)
        c.powerRange ∧
      f.energyCorridor = startedEnergy (min (now - task.startingTime) task.runningTime)
        (c.energyWindow stored)
  blocked : s.socTargetActive now = true → task.startingTime < s.targetSocTime →
    0 ≤ task.runningTime ∧
      f.powerCorridor = startedPower
        (min (s.targetSocTime - task.startingTime) task.runningTime) c.powerRange

theorem expectedEnergy_now (s : DeviceState) (now stored : Int) :
    s.expectedEnergy now now stored = stored := by
  simp [expectedEnergy, PowerProfile.energyBetween, Quantity.wattHours]

theorem clamp_eq_ok {low high x y : Int} (h : Halt.clamp low high x = .ok y) :
    low ≤ high ∧ y = max low (min x high) := by
  rw [Halt.clamp] at h
  split at h
  · cases h
  · cases h
    exact ⟨by omega, rfl⟩

/-- The offer of a started task. -/
theorem refreshStarted_spec {s s' : DeviceState} {task : Task} {now stored : Int}
    {c : DeviceConfig} (h : s.refreshStarted task now stored c = .ok s')
    (hstarted : task.startingTime ≤ now) :
    ∃ power energy, s' = s.setCorridors task.flexibilityId power energy ∧
      ∀ f : Flexibility, Refreshed s now stored c task
        { f with powerCorridor := power, energyCorridor := energy } := by
  obtain ⟨offset, hclamp, hs'⟩ := bind_eq_ok_iff.1 h
  obtain ⟨hrun, hoffset⟩ := clamp_eq_ok hclamp
  refine ⟨_, _, (Except.ok.inj hs').symm, fun f => ⟨?_, ?_, ?_, ?_⟩⟩
  · exact fun hfuture => absurd hfuture (by omega)
  · exact fun hfuture => absurd hfuture (by omega)
  · -- Without a charge target the offer begins now.
    intro _ hsoc
    have hnow : (if s.socTargetActive now = true then s.targetSocTime else now) = now := by
      rw [hsoc, if_neg Bool.false_ne_true]
    rw [hnow] at hoffset ⊢
    have hmin : offset = min (now - task.startingTime) task.runningTime := by omega
    rw [expectedEnergy_now, hmin]
    exact ⟨hrun, rfl, rfl⟩
  · -- With one it begins there.
    intro hsoc hearly
    rw [if_pos hsoc] at hoffset
    have hmin : offset = min (s.targetSocTime - task.startingTime) task.runningTime := by omega
    rw [hmin]
    exact ⟨hrun, rfl⟩

/-- The offer of a task that is yet to start. -/
theorem refreshFuture_spec {s s' : DeviceState} {task : Task} {now stored : Int}
    {c : DeviceConfig} (h : s.refreshFuture task now stored c = .ok s')
    (hfuture : now < task.startingTime) :
    ∃ power energy, s' = s.setCorridors task.flexibilityId power energy ∧
      ∀ f : Flexibility, Refreshed s now stored c task
        { f with powerCorridor := power, energyCorridor := energy } := by
  simp only [refreshFuture] at h
  split at h
  · -- A charge target closes part of the power corridor.
    rename_i hblocked
    obtain ⟨offset, hclamp, hs'⟩ := bind_eq_ok_iff.1 h
    obtain ⟨hrun, hoffset⟩ := clamp_eq_ok hclamp
    refine ⟨_, _, (Except.ok.inj hs').symm, fun f => ⟨fun _ => rfl, ?_, ?_, ?_⟩⟩
    · intro _ hsoc
      simp [hsoc] at hblocked
    · exact fun hstarted => absurd hstarted (by omega)
    · intro _ hearly
      have hmin : offset = min (s.targetSocTime - task.startingTime) task.runningTime := by omega
      rw [hmin]
      exact ⟨hrun, rfl⟩
  · rename_i hopen
    refine ⟨_, _, (Except.ok.inj h).symm, fun f => ⟨fun _ => rfl, fun _ _ => rfl, ?_, ?_⟩⟩
    · exact fun hstarted => absurd hstarted (by omega)
    · intro hsoc hearly
      simp [hsoc, hearly] at hopen

/-- Deriving corridors replaces those of one flexibility and nothing else. -/
theorem refresh_spec {s s' : DeviceState} {task : Task} {now stored : Int} {c : DeviceConfig}
    (h : s.refresh task now stored c = .ok s') :
    ∃ power energy, s' = s.setCorridors task.flexibilityId power energy ∧
      ∀ f : Flexibility, Refreshed s now stored c task
        { f with powerCorridor := power, energyCorridor := energy } := by
  rw [refresh] at h
  split at h
  · rename_i hstarted
    exact refreshStarted_spec h hstarted
  · rename_i hfuture
    exact refreshFuture_spec h (by omega)

theorem Refreshed.setCorridors {s : DeviceState} {now stored : Int} {c : DeviceConfig}
    {task : Task} {f : Flexibility} {id : Int} {power energy : Corridor} :
    Refreshed (s.setCorridors id power energy) now stored c task f ↔
      Refreshed s now stored c task f :=
  ⟨fun h => ⟨h.1, h.2, h.3, h.4⟩, fun h => ⟨h.1, h.2, h.3, h.4⟩⟩

/-! ## The answer -/

/-- Deriving the corridors of all listed tasks changes flexibilities only. Those of
    listed tasks are refreshed, the others stay as they were. -/
theorem refreshAll_spec {now stored : Int} {c : DeviceConfig} :
    ∀ {ids : List Int} {s s' : DeviceState}, refreshAll now stored c ids s = .ok s' →
      (∀ k t, s.tasks.get? k = some t → t.flexibilityId = k) →
      s' = { s with flexibilities := s'.flexibilities } ∧
      (∀ k, k ∉ ids → s'.flexibilities.get? k = s.flexibilities.get? k) ∧
      ∀ k t f, k ∈ ids → s.tasks.get? k = some t → s'.flexibilities.get? k = some f →
        Refreshed s now stored c t f
  | [], s, s', h, _ => by
      cases Except.ok.inj h
      exact ⟨rfl, fun _ _ => rfl, fun k t f hk => by simp at hk⟩
  | id :: rest, s, s', h, hlinked => by
      rw [refreshAll] at h
      cases hid : s.tasks.get? id with
      | none =>
          -- An id without a task is passed over.
          rw [hid] at h
          obtain ⟨hs', hsame, hrefreshed⟩ := refreshAll_spec h hlinked
          refine ⟨hs', fun k hk => hsame k fun hmem => hk (List.mem_cons_of_mem _ hmem), ?_⟩
          intro k t f hk ht hf
          rcases List.mem_cons.1 hk with rfl | hk
          · rw [hid] at ht
            cases ht
          · exact hrefreshed k t f hk ht hf
      | some task =>
          rw [hid] at h
          obtain ⟨s₁, hs₁, hrest⟩ := bind_eq_ok_iff.1 h
          obtain ⟨power, energy, rfl, hcorridors⟩ := refresh_spec hs₁
          obtain ⟨hs', hsame, hrefreshed⟩ := refreshAll_spec hrest hlinked
          -- Only the flexibility of this task gets new corridors.
          have hflex : ∀ k, (s.setCorridors task.flexibilityId power energy).flexibilities.get? k
              = if k = id then (s.flexibilities.get? k).map fun f =>
                  { f with powerCorridor := power, energyCorridor := energy }
                else s.flexibilities.get? k := by
            intro k
            rw [setCorridors, hlinked id task hid, OrderedMap.get?_modify]
          refine ⟨hs', fun k hk => ?_, fun k t f hk ht hf => ?_⟩
          · rw [List.mem_cons, not_or] at hk
            rw [hsame k hk.2, hflex, if_neg hk.1]
          · by_cases hmem : k ∈ rest
            · -- A later visit to the same id decides.
              exact Refreshed.setCorridors.1 (hrefreshed k t f hmem ht hf)
            · -- No later id is this one, so the corridors stay.
              obtain rfl : k = id := by simpa [hmem] using hk
              rw [hsame k hmem, hflex, if_pos rfl, Option.map_eq_some_iff] at hf
              obtain ⟨f₀, -, rfl⟩ := hf
              rw [hid, Option.some.injEq] at ht
              exact ht ▸ hcorridors f₀

/-- The state in which the answer to a request finds the days of its window, with
    the ids of the first and the last task. -/
def ensureDays (s : DeviceState) (start stop now stored : Int) (zone : Zone) (c : DeviceConfig) :
    List Int × DeviceState :=
  let (first, s) := s.ensureDay start false now stored zone c
  let (last, s) := s.ensureDay stop true now stored zone c
  (if last = first then [first] else [first, last], s)

theorem getSchedule_eq_ok {s s' : DeviceState} {device : DeviceId} {start stop now stored : Int}
    {zone : Zone} {c : DeviceConfig} {summary : ScheduleSummary}
    (h : s.getSchedule device start stop now stored zone c = .ok (summary, s')) :
    start ≤ stop ∧ stop - start ≤ maxScheduleRange ∧
      summary.taskIds = (s.ensureDays start stop now stored zone c).1 ∧
      summary.flexibilityIds = summary.taskIds.filterMap (fun id =>
        ((s.ensureDays start stop now stored zone c).2.tasks.get? id).map (·.flexibilityId)) ∧
      refreshAll now stored c (s.ensureDays start stop now stored zone c).1
        (s.ensureDays start stop now stored zone c).2 = .ok s' := by
  simp only [getSchedule] at h
  split at h
  · cases h
  · split at h
    · cases h
    · split at h
      · cases h
      · rename_i refreshed hrefreshed
        cases h
        exact ⟨by omega, by omega, rfl, rfl, hrefreshed⟩

end DeviceState
end SiteDispatch
