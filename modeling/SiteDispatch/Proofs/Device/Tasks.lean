/-
  SiteDispatch.Proofs.Device.Tasks

  Which tasks a device has, and when they run.

  Requests for the schedule, corrections and repairs neither forget a task nor move it. A request
  may add tasks, under ids that are free as long as there are ids left.
-/

import SiteDispatch.Proofs.Device.Days
import SiteDispatch.Proofs.Device.Ids

namespace SiteDispatch
namespace DeviceState

/-! ## Windows -/

/-- Every task lasts for some time, and no two tasks run at the same instant. -/
structure Separate (s : DeviceState) : Prop where
  lasting : ∀ k t, s.tasks.get? k = some t → 0 < t.runningTime
  apart : ∀ j k t u, s.tasks.get? j = some t → s.tasks.get? k = some u → j ≠ k →
    t.stop ≤ u.startingTime ∨ u.stop ≤ t.startingTime

/-- Every task is there still, in the window that it had. -/
def KeepsTasks (s s' : DeviceState) : Prop :=
  ∀ k t, s.tasks.get? k = some t → ∃ t', s'.tasks.get? k = some t' ∧
    t'.startingTime = t.startingTime ∧ t'.runningTime = t.runningTime

theorem Separate.of_keepsTasks {s s' : DeviceState} (h : s'.Separate) (hkept : s.KeepsTasks s') :
    s.Separate where
  lasting k t ht := by
    obtain ⟨t', ht', -, hlength⟩ := hkept k t ht
    rw [← hlength]
    exact h.lasting k t' ht'
  apart j k t u ht hu hjk := by
    obtain ⟨t', ht', hstart, hlength⟩ := hkept j t ht
    obtain ⟨u', hu', hstart', hlength'⟩ := hkept k u hu
    have hapart := h.apart j k t' u' ht' hu' hjk
    rwa [Task.stop, Task.stop, hstart, hlength, hstart', hlength'] at hapart

theorem KeepsTasks.not_running {s s' : DeviceState} (h : s.KeepsTasks s') {time : Int}
    (hnone : ∀ k t, s'.tasks.get? k = some t → ¬ t.isRunning time) :
    ∀ k t, s.tasks.get? k = some t → ¬ t.isRunning time := by
  intro k t ht
  obtain ⟨t', ht', hstart, hlength⟩ := h k t ht
  have hout := hnone k t' ht'
  rwa [Task.isRunning_iff, Task.stop, hstart, hlength, ← Task.stop, ← Task.isRunning_iff] at hout

theorem KeepsTasks.refl (s : DeviceState) : s.KeepsTasks s :=
  fun _ t ht => ⟨t, ht, rfl, rfl⟩

theorem KeepsTasks.trans {s s' s'' : DeviceState} (h : s.KeepsTasks s') (h' : s'.KeepsTasks s'') :
    s.KeepsTasks s'' := by
  intro k t ht
  obtain ⟨t', ht', hstart, hlength⟩ := h k t ht
  obtain ⟨t'', ht'', hstart', hlength'⟩ := h' k t' ht'
  exact ⟨t'', ht'', hstart'.trans hstart, hlength'.trans hlength⟩

/-- Tasks that are kept do not become fewer. -/
theorem KeepsTasks.size_le {s s' : DeviceState} (h : s.KeepsTasks s') :
    s.tasks.size ≤ s'.tasks.size := by
  -- The keys are counted, which are all different.
  have hnodup : s.tasks.keys.Nodup := s.tasks.pairwise_keys.imp fun hlt => Int.ne_of_lt hlt
  have hsubset : s.tasks.keys ⊆ s'.tasks.keys := by
    intro k hk
    obtain ⟨t, ht⟩ := OrderedMap.mem_keys_iff_get?.1 hk
    obtain ⟨t', ht', -⟩ := h k t ht
    exact OrderedMap.mem_keys_iff_get?.2 ⟨t', ht'⟩
  rw [← OrderedMap.length_keys, ← OrderedMap.length_keys]
  exact (hnodup.subperm hsubset).length_le

/-- In UTC tasks do not overlap as long as every profile that is scheduled lasts for a whole
    day. -/
theorem separate_of_wholeDays {s : DeviceState} (hs : Reachable DeviceOperation.WholeDays s) :
    s.Separate := by
  have hpaired := (hs.holds wholeDayInvariant).paired
  have hone := oneADay_of_reachable hs
  have hwindow : ∀ k t, s.tasks.get? k = some t →
      t.runningTime = Calendar.daySeconds ∧ t.stop % Calendar.daySeconds = 0 := by
    intro k t ht
    obtain ⟨f, -, hpair⟩ := hpaired.of_task ht
    have hmidnight := hpair.midnight
    rw [hpair.ends] at hmidnight
    exact ⟨hpair.whole, hmidnight⟩
  constructor
  · intro k t ht
    rw [(hwindow k t ht).1]
    decide
  · -- Tasks of different days end at different midnights.
    intro j k t u ht hu hjk
    have hne : t.stop ≠ u.stop := fun hstop => hjk (hone j k t u ht hu hstop)
    have hday := hwindow j t ht
    have hday' := hwindow k u hu
    simp only [Task.stop, Calendar.daySeconds] at *
    omega

/-! ## Corrections and repairs -/

theorem keepsTasks_withAdapted {s : DeviceState} {f : Flexibility} {task : Task}
    {update : PowerProfile} {first last : Int} (htask : s.tasks.get? f.taskId = some task) :
    s.KeepsTasks (s.withAdapted f task update first last) := by
  intro k t ht
  by_cases hk : k = f.taskId
  · subst hk
    rw [htask, Option.some.injEq] at ht
    subst ht
    exact ⟨_, OrderedMap.get?_insert_self _ _ _, rfl, rfl⟩
  · refine ⟨t, ?_, rfl, rfl⟩
    show (s.tasks.insert _ _).get? k = some t
    rw [OrderedMap.get?_insert, if_neg hk, ht]

theorem keepsTasks_adapt (s : DeviceState) (id : Int) (update : PowerProfile) :
    s.KeepsTasks (s.adapt id update).2 := by
  rcases s.adapt_cases id update with
    ⟨-, heq⟩ | ⟨f, task, first, last, -, -, htask, -, -, -, heq⟩
  · rw [heq]
    exact .refl s
  · rw [heq]
    exact keepsTasks_withAdapted htask

/-- A repair moves no task. -/
theorem window_restTaskAt (tasks : OrderedMap Int Task) (time k : Int) :
    ((restTaskAt tasks time).get? k).map (fun t => (t.startingTime, t.runningTime))
      = (tasks.get? k).map fun t => (t.startingTime, t.runningTime) := by
  rw [restTaskAt]
  split
  · rfl
  · rw [OrderedMap.get?_modify]
    split
    · rw [Option.map_map]
      rfl
    · rfl

theorem window_repairAlong (low high time : Int) (later : List Int) (r : DeviceState.Repair)
    (k : Int) :
    ((repairAlong low high time later r).tasks.get? k).map
        (fun t => (t.startingTime, t.runningTime))
      = (r.tasks.get? k).map fun t => (t.startingTime, t.runningTime) := by
  induction later generalizing time r with
  | nil => rfl
  | cons next later ih =>
      rw [repairAlong]
      split
      · rw [ih]
        exact window_restTaskAt r.tasks time k
      · rw [ih]

theorem keepsTasks_repair (s : DeviceState) (now stored low high : Int) :
    s.KeepsTasks (s.repair now stored low high).2 := by
  intro k t ht
  have hwindow : ((s.repair now stored low high).2.tasks.get? k).map
      (fun t => (t.startingTime, t.runningTime)) = some (t.startingTime, t.runningTime) := by
    have hdone := window_repairAlong low high now
      (s.scheduledPower.keys.filter fun k => now < k)
      ⟨s.scheduledPower, s.tasks, stored, 0⟩ k
    rw [ht, Option.map_some] at hdone
    simp only [repair]
    -- The shortest form, which the running task gets at the end, has the same window.
    split
    · exact hdone
    · rw [OrderedMap.get?_modify]
      split
      · rw [Option.map_map]
        exact hdone
      · exact hdone
  obtain ⟨t', ht', heq⟩ := Option.map_eq_some_iff.1 hwindow
  rw [Prod.mk.injEq] at heq
  exact ⟨t', ht', heq.1, heq.2⟩

/-! ## Requests for the schedule -/

/-- There are at least as many ids as flexibilities and tasks. -/
def HasRoom (s : DeviceState) : Prop :=
  2 * (s.tasks.size : Int) ≤ Quantity.greatest

section Request

variable {allowed : DeviceOperation → Prop} {P : Int → Flexibility → Task → Prop}
  {s s' : DeviceState} {time now stored start stop : Int} {stopIncluded : Bool} {zone : Zone}
  {c : DeviceConfig}

theorem HasRoom.of_size_le (h : s'.HasRoom) (hsize : s.tasks.size ≤ s'.tasks.size) :
    s.HasRoom := by
  have hroom : 2 * (s'.tasks.size : Int) ≤ Quantity.greatest := h
  show 2 * (s.tasks.size : Int) ≤ Quantity.greatest
  omega

theorem HasRoom.size_le (h : s.HasRoom) : (s.tasks.size : Int) ≤ Quantity.greatest := by
  have hroom : 2 * (s.tasks.size : Int) ≤ Quantity.greatest := h
  omega

theorem size_le_ensureDay :
    s.tasks.size ≤ (s.ensureDay time stopIncluded now stored zone c).2.tasks.size := by
  rcases s.ensureDay_cases time stopIncluded now stored zone c with
    ⟨k, t, -, -, heq⟩ | ⟨energy, heq⟩
  · rw [heq]
  · rw [heq]
    exact OrderedMap.size_le_size_insert _ _ _

theorem keepsTasks_withDay {id : Int} (hnew : s.tasks.get? id = none) :
    s.KeepsTasks (s.withDay id start stop stored c) := by
  intro k t ht
  refine ⟨t, ?_, rfl, rfl⟩
  show (s.tasks.insert id _).get? k = some t
  rw [OrderedMap.get?_insert_of_ne ?_, ht]
  rintro rfl
  rw [hnew] at ht
  cases ht

theorem Holds.keepsTasks_ensureDay (h : s.Holds P)
    (hroom : (s.tasks.size : Int) ≤ Quantity.greatest) :
    s.KeepsTasks (s.ensureDay time stopIncluded now stored zone c).2 := by
  rcases s.ensureDay_cases time stopIncluded now stored zone c with
    ⟨k, t, -, -, heq⟩ | ⟨energy, heq⟩
  · rw [heq]
    exact .refl s
  · rw [heq]
    exact keepsTasks_withDay (h.nextId_free hroom).2

/-- A request creates two days at most and derives corridors anew. -/
theorem getSchedule_days (hinv : PairInvariant allowed P) (hheld : s.Holds P) {device : DeviceId}
    {summary : ScheduleSummary}
    (hop : allowed (.getSchedule device start stop now stored zone c))
    (hs' : s.getSchedule device start stop now stored zone c = .ok (summary, s')) :
    s' = { (s.ensureDays start stop now stored zone c).2 with
      flexibilities := s'.flexibilities } := by
  obtain ⟨-, -, -, -, hrefresh⟩ := getSchedule_eq_ok hs'
  exact (refreshAll_spec hrefresh ((hheld.ensureDays hinv hop).named hinv)).1

/-- If there is room after a request, there was before each of its days. -/
theorem HasRoom.getSchedule (hroom : s'.HasRoom) (hinv : PairInvariant allowed P)
    (hheld : s.Holds P) {device : DeviceId} {summary : ScheduleSummary}
    (hop : allowed (.getSchedule device start stop now stored zone c))
    (hs' : s.getSchedule device start stop now stored zone c = .ok (summary, s')) :
    s.HasRoom ∧ (s.ensureDay start false now stored zone c).2.HasRoom ∧
      s.KeepsTasks (s.ensureDay start false now stored zone c).2 ∧
      (s.ensureDay start false now stored zone c).2.KeepsTasks s' := by
  have htasks : s'.tasks = (s.ensureDays start stop now stored zone c).2.tasks := by
    rw [getSchedule_days hinv hheld hop hs']
  have hroom₁ : (s.ensureDay start false now stored zone c).2.HasRoom :=
    hroom.of_size_le (by rw [htasks]; exact size_le_ensureDay)
  have hroom₀ : s.HasRoom := hroom₁.of_size_le size_le_ensureDay
  refine ⟨hroom₀, hroom₁, hheld.keepsTasks_ensureDay hroom₀.size_le, fun k t ht => ?_⟩
  rw [htasks]
  exact (hheld.ensureDay hinv hop (.inl rfl) false).keepsTasks_ensureDay hroom₁.size_le k t ht

end Request

end DeviceState
end SiteDispatch
