/-
  SiteDispatch.Proofs.Device.Agreement

  How far the timeline and the tasks of a device agree while tasks are corrected and repaired.

  A correction is written into both, and a repair sets the same breakpoints of both to 0 W. The
  timeline keeps all its breakpoints, though, while a profile is compressed: a repair that ends
  where the timeline has a breakpoint and the profile has none ends on the timeline only, and
  the task rests on. Where the two differ the task rests, therefore. They agree everywhere as
  long as no repair ends in the middle of a stretch of constant power.
-/

import SiteDispatch.Proofs.Device.Repair
import SiteDispatch.Proofs.Device.Resting

namespace SiteDispatch

open PowerProfile

/-! ## Corrected and repaired tasks -/

/-- Schedules are requested, and tasks are corrected, at offsets that are not negative, and
    repaired. -/
def DeviceOperation.Corrects : DeviceOperation → Prop
  | getSchedule .. => True
  | adapt _ update => ∀ k ∈ update.keys, 0 ≤ k
  | repair .. => True
  | _ => False

namespace DeviceState

/-- A pair whose task has the length of its day. -/
structure FixedPair (k : Int) (f : Flexibility) (t : Task) : Prop extends Linked k f t where
  length : f.runningTime.high = t.runningTime
  ends : ∃ stop, f.stoppingTime = ⟨stop, stop⟩ ∧
    t.runningTime = Quantity.low32 (stop - t.startingTime)

theorem fixedInvariant : PairInvariant DeviceOperation.Corrects FixedPair where
  linked h := h.toLinked
  newDay _ hday := hday.elim
  localDay _ _ _ hid :=
    { nonneg := hid
      flexibility := rfl
      assigned := rfl
      task := rfl
      named := rfl
      length := rfl
      ends := ⟨_, rfl, rfl⟩ }
  corridors _ _ h := { h with }
  scheduled _ hop _ := hop.elim
  adapted h _ := { h with }
  rested h := { h with }
  repaired h _ := { h with }
  compressed h := { h with }

section Pair

variable {k : Int} {f : Flexibility} {t : Task}

theorem FixedPair.runningTime_le (h : FixedPair k f t) : t.runningTime ≤ Quantity.greatest := by
  obtain ⟨stop, -, hlength⟩ := h.ends
  rw [hlength]
  exact Quantity.low32_le_greatest _

/-- A corrected profile ends with its task. -/
theorem FixedPair.lastEntry? (h : FixedPair k f t) {p : PowerProfile}
    (hfits : f.Fits t.startingTime p) : p.lastEntry? = some (t.runningTime, 0) := by
  obtain ⟨stop, hends, hlength⟩ := h.ends
  have hlast := hfits.lastEntry? hends
  have h0 := hfits.last_nonneg hlast
  obtain ⟨last, hlast', hle, -⟩ := hfits.stops
  rw [hlast, Option.some.injEq, Prod.mk.injEq] at hlast'
  rw [← hlast'.1, h.length, hlength] at hle
  rw [hlast, hlength, Quantity.low32_eq_of_le h0 hle]

end Pair

/-- The timeline has the breakpoints of all tasks. -/
def Marks (s : DeviceState) : Prop :=
  ∀ k t, s.tasks.get? k = some t → PowerTimeline.Marks s.scheduledPower t

/-- Where a task and the timeline differ, the task rests. -/
def Follows (s : DeviceState) : Prop :=
  ∀ k t, s.tasks.get? k = some t → PowerTimeline.Follows s.scheduledPower t

/-- The timeline shows all tasks and rests wherever none is running. -/
structure Shows (s : DeviceState) : Prop where
  tasks : ∀ k t, s.tasks.get? k = some t → PowerTimeline.Shows s.scheduledPower t
  rests : ∀ time, (∀ k t, s.tasks.get? k = some t → ¬ t.isRunning time) → s.powerAt time = 0

/-- Setting breakpoints to 0 W leaves the timeline at rest where no task is running. -/
theorem Shows.rests_of_onlyRests {s s' : DeviceState} (h : s.Shows)
    (honly : PowerTimeline.OnlyRests s.scheduledPower s'.scheduledPower) {time : Int}
    (hnone : ∀ k t, s.tasks.get? k = some t → ¬ t.isRunning time) : s'.powerAt time = 0 := by
  rcases honly.powerAt time with hzero | hsame
  · exact hzero
  · exact hsame.trans (h.rests time hnone)

/-! ### New days -/

theorem powerAt_idle (runningTime t : Int) :
    PowerProfile.powerAt (PowerProfile.idle runningTime) t = 0 := by
  refine PowerProfile.powerAt_eq_zero (fun k v hget => ?_) t
  rw [PowerProfile.idle, OrderedMap.get?_insert, OrderedMap.get?_singleton] at hget
  split_ifs at hget
  · exact (Option.some.inj hget).symm
  · exact (Option.some.inj hget).symm

section Day

variable {s : DeviceState} {id start stop stored : Int} {c : DeviceConfig}

/-- A new day sets no breakpoint while another task is running. -/
theorem sameAlong_withDay {k : Int} {t : Task} (ht : s.tasks.get? k = some t)
    (huncovered : ∀ k t, s.tasks.get? k = some t → ¬ covers start false t) :
    PowerTimeline.SameAlong s.scheduledPower
      (s.withDay id start stop stored c).scheduledPower t := by
  intro i h0 hi
  have hout := huncovered k t ht
  rw [covers_iff, Task.stop] at hout
  have hne : t.startingTime + i ≠ start := by
    rintro rfl
    exact hout ⟨by omega, .inl (by omega)⟩
  show (s.scheduledPower.insertNew start 0).get? (t.startingTime + i) = _
  rw [OrderedMap.get?_insertNew, if_neg hne]

theorem onlyRests_withDay (s : DeviceState) (id start stop stored : Int) (c : DeviceConfig) :
    PowerTimeline.OnlyRests s.scheduledPower
      (s.withDay id start stop stored c).scheduledPower := by
  intro j
  show (s.scheduledPower.insertNew start 0).get? j = some 0 ∨
    (s.scheduledPower.insertNew start 0).get? j = s.scheduledPower.get? j
  rw [OrderedMap.get?_insertNew]
  split
  · cases s.scheduledPower.get? j with
    | none => exact .inl rfl
    | some v => exact .inr rfl
  · exact .inr rfl

theorem Marks.withDay (h : s.Marks)
    (huncovered : ∀ k t, s.tasks.get? k = some t → ¬ covers start false t) :
    (s.withDay id start stop stored c).Marks := by
  intro k t ht
  simp only [DeviceState.withDay, OrderedMap.get?_insert] at ht
  split at ht
  · -- A new task has a breakpoint at its start, and no other one before its end.
    cases ht
    constructor
    · rw [OrderedMap.mem_keys_iff_get?]
      show ∃ v, (PowerProfile.idle _).get? 0 = some v
      rw [PowerProfile.idle, OrderedMap.get?_insert, OrderedMap.get?_singleton]
      split
      · exact ⟨0, rfl⟩
      · exact ⟨0, rfl⟩
    · intro i hi h0 hlast
      rw [OrderedMap.mem_keys_iff_get?] at hi
      obtain ⟨v, hv⟩ := hi
      have hlast : i ≠ Quantity.low32 (stop - start) := fun heq => absurd hlast (by
        rw [heq]
        exact Int.lt_irrefl _)
      rw [Task.idle, PowerProfile.idle, OrderedMap.get?_insert, if_neg hlast,
        OrderedMap.get?_singleton] at hv
      split at hv
      · rename_i hzero
        subst hzero
        rw [OrderedMap.mem_keys_iff_get?]
        show ∃ v, (s.scheduledPower.insertNew start 0).get? (start + 0) = some v
        rw [Int.add_zero, OrderedMap.get?_insertNew, if_pos rfl]
        cases s.scheduledPower.get? start with
        | none => exact ⟨0, rfl⟩
        | some w => exact ⟨w, rfl⟩
      · cases hv
  · exact (sameAlong_withDay ht huncovered).marks (h k t ht)

theorem Follows.withDay (h : s.Follows) (hmarks : s.Marks)
    (huncovered : ∀ k t, s.tasks.get? k = some t → ¬ covers start false t) :
    (s.withDay id start stop stored c).Follows := by
  intro k t ht
  simp only [DeviceState.withDay, OrderedMap.get?_insert] at ht
  split at ht
  · cases ht
    exact fun i _ _ => .inr (powerAt_idle _ i)
  · exact (sameAlong_withDay ht huncovered).follows (hmarks k t ht) (h k t ht)

/-- The timeline rests where a day is created, as no task is running there. -/
theorem Shows.withDay (h : s.Shows) (hmarks : s.Marks)
    (hkept : s.KeepsTasks (s.withDay id start stop stored c))
    (hsep : (s.withDay id start stop stored c).Separate) (hnew : s.tasks.get? id = none)
    (huncovered : ∀ k t, s.tasks.get? k = some t → ¬ covers start false t) :
    (s.withDay id start stop stored c).Shows := by
  have hrests : ∀ time, (∀ k t, s.tasks.get? k = some t → ¬ t.isRunning time) →
      (s.withDay id start stop stored c).powerAt time = 0 := fun time hnone =>
    h.rests_of_onlyRests (onlyRests_withDay s id start stop stored c) hnone
  constructor
  · intro k t ht
    simp only [DeviceState.withDay, OrderedMap.get?_insert] at ht
    split at ht
    · rename_i hk
      cases ht
      -- No task that was there is running in the window of the new one.
      intro i h0 hi
      refine Eq.trans (hrests _ fun j u hu hruns => ?_) (powerAt_idle _ i).symm
      obtain ⟨u', hu', hstart', hlength'⟩ := hkept j u hu
      have hjk : j ≠ id := by
        rintro rfl
        rw [hnew] at hu
        cases hu
      have hself : (s.withDay id start stop stored c).tasks.get? id
          = some (Task.idle id id true start (Quantity.low32 (stop - start))) :=
        OrderedMap.get?_insert_self _ _ _
      have hapart := hsep.apart j id u' _ hu' hself hjk
      rw [Task.isRunning_iff] at hruns
      simp only [Task.stop, hstart', hlength', Task.idle] at *
      omega
    · exact (sameAlong_withDay ht huncovered).shows (hmarks k t ht) (h.tasks k t ht)
  · exact fun time hnone => hrests time (hkept.not_running hnone)

end Day

/-! ### Corrections -/

section Adapt

variable {s : DeviceState} {f : Flexibility} {task : Task} {k first last : Int}
  {update : PowerProfile}

/-- A correction sets no breakpoint while another task is running; at the end of its own task
    it gives way. -/
theorem sameAlong_correctedLine {t : Task} (hmarks : PowerTimeline.Marks s.scheduledPower t)
    (hapart : task.stop ≤ t.startingTime ∨ t.stop ≤ task.startingTime)
    (hfirst : update.firstKey? = some first) (hlast : update.lastKey? = some last)
    (hfirst0 : 0 ≤ first) (hstop : task.startingTime + last ≤ task.stop) :
    PowerTimeline.SameAlong s.scheduledPower
      (correctedLine s.scheduledPower task update first last) t := by
  intro i h0 hi
  by_cases hout : t.startingTime + i < task.startingTime + first ∨
      task.startingTime + last < t.startingTime + i
  · exact get?_correctedLine_of_outside hfirst hlast hout
  · -- The one instant left is the start of the other task, where it has a breakpoint.
    simp only [Task.stop] at hapart hstop
    have hend : task.startingTime + last = task.stop := by
      rw [Task.stop]
      omega
    have hi0 : i = 0 ∧ t.startingTime + i = task.startingTime + last := by omega
    have hmarked := hmarks.keys i (hi0.1 ▸ hmarks.zero) h0 hi
    obtain ⟨v, hv⟩ := OrderedMap.mem_keys_iff_get?.1 hmarked
    rw [hi0.2] at hv ⊢
    rw [PowerTimeline.get?_correctedLine_stop s.scheduledPower update first hend, hv,
      Option.some_or]

/-- A correction that is taken ends with its task at the latest. -/
theorem FixedPair.last_le (h : FixedPair k f task)
    (hfits : f.Fits task.startingTime (corrected task update first last).2) :
    last ≤ task.runningTime :=
  last_le_of_lastEntry? (h.lastEntry? hfits)

/-- What a correction has met that was taken for a task. -/
structure Taken (s : DeviceState) (f : Flexibility) (task : Task) (update : PowerProfile)
    (first last : Int) : Prop where
  stored : s.tasks.get? f.taskId = some task
  pair : FixedPair f.taskId f task
  firstKey : update.firstKey? = some first
  lastKey : update.lastKey? = some last
  nonneg : ∀ k ∈ update.keys, 0 ≤ k
  fits : f.Fits task.startingTime (corrected task update first last).2

namespace Taken

theorem first_nonneg (h : Taken s f task update first last) : 0 ≤ first :=
  h.nonneg first (OrderedMap.firstKey?_eq_some_iff.1 h.firstKey).1

theorem last_nonneg (h : Taken s f task update first last) : 0 ≤ last :=
  h.nonneg last (OrderedMap.lastKey?_eq_some_iff.1 h.lastKey).1

theorem stop_le (h : Taken s f task update first last) :
    task.startingTime + last ≤ task.stop := by
  rw [Task.stop]
  exact Int.add_le_add_left (h.pair.last_le h.fits) _

/-- One task is corrected, and the timeline stays as it is where another one is running. -/
theorem task_cases (h : Taken s f task update first last) (hmarks : s.Marks) (hsep : s.Separate)
    {t : Task} (ht : (s.withAdapted f task update first last).tasks.get? k = some t) :
    t = Task.compress { task with power := (corrected task update first last).2 } ∨
      (s.tasks.get? k = some t ∧ PowerTimeline.SameAlong s.scheduledPower
        (correctedLine s.scheduledPower task update first last) t) := by
  simp only [withAdapted, OrderedMap.get?_insert] at ht
  split at ht
  · exact .inl (Option.some.inj ht).symm
  · rename_i hk
    exact .inr ⟨ht, sameAlong_correctedLine (hmarks k t ht)
      (hsep.apart _ _ _ _ h.stored ht (Ne.symm hk)) h.firstKey h.lastKey h.first_nonneg h.stop_le⟩

theorem marks (h : Taken s f task update first last) (hmarks : s.Marks) (hsep : s.Separate) :
    (s.withAdapted f task update first last).Marks := by
  intro k t ht
  rcases h.task_cases hmarks hsep ht with rfl | ⟨ht, hsame⟩
  · exact ((hmarks _ _ h.stored).corrected h.firstKey h.lastKey h.fits.starts).compress
  · exact hsame.marks (hmarks k t ht)

theorem follows (h : Taken s f task update first last) (hmarks : s.Marks) (hsep : s.Separate)
    (hfollows : s.Follows) : (s.withAdapted f task update first last).Follows := by
  intro k t ht
  rcases h.task_cases hmarks hsep ht with rfl | ⟨ht, hsame⟩
  · exact ((hfollows _ _ h.stored).corrected (hmarks _ _ h.stored) h.firstKey h.lastKey
      h.last_nonneg).compress
  · exact hsame.follows (hmarks k t ht) (hfollows k t ht)

/-- The value with which a correction ends is 0 W if it goes on behind the task: there the
    timeline is at rest. -/
theorem rests (h : Taken s f task update first last) (hshows : s.Shows) {time : Int}
    (hnone : ∀ k t, s.tasks.get? k = some t → ¬ t.isRunning time) :
    (s.withAdapted f task update first last).powerAt time = 0 := by
  have hquiet : s.powerAt time = 0 := hshows.rests time hnone
  have hout := hnone _ _ h.stored
  rw [Task.isRunning_iff] at hout
  rcases lt_or_ge time task.startingTime with hbefore | hfrom
  · -- Before the task nothing changes.
    have hfirst := h.first_nonneg
    refine Eq.trans (powerAt_congr fun j hj => ?_) hquiet
    exact get?_correctedLine_of_outside h.firstKey h.lastKey (.inl (by omega))
  · have hstop := h.stop_le
    have hresumes : PowerTimeline.Resumes s.scheduledPower
        (correctedLine s.scheduledPower task update first last)
        (min (task.startingTime + last + 1) task.stop) (task.powerAt last) time :=
      PowerTimeline.correctedLine_resumes h.firstKey h.lastKey hstop (by omega)
    by_cases hset : PowerTimeline.SetBetween s.scheduledPower
        (min (task.startingTime + last + 1) task.stop) time
    · exact (hresumes.1 hset).trans hquiet
    · refine (hresumes.2 hset).trans ?_
      rcases Int.lt_or_eq_of_le (h.pair.last_le h.fits) with hinside | hend
      · -- What the task had at the end of the correction is still in force behind it.
        have hlast0 := h.last_nonneg
        have hshown := hshows.tasks _ _ h.stored last hlast0 hinside
        have hstay : s.powerAt time
            = PowerProfile.powerAt s.scheduledPower (task.startingTime + last) := by
          refine powerAt_eq_of_no_key (by rw [Task.stop] at hout; omega) fun j hj hjt => ?_
          rw [OrderedMap.get?_eq_none_iff]
          exact fun hmem => hset ⟨j, hmem, by omega, hjt⟩
        rw [← hshown, ← hstay, hquiet]
      · -- The corrected profile ends with 0 W, and this is its end.
        have hentry := h.pair.lastEntry? h.fits
        rw [← hend] at hentry
        exact powerAt_last_of_lastEntry? hentry

theorem shows (h : Taken s f task update first last) (hmarks : s.Marks) (hsep : s.Separate)
    (hshows : s.Shows) : (s.withAdapted f task update first last).Shows where
  tasks k t ht := by
    rcases h.task_cases hmarks hsep ht with rfl | ⟨ht, hsame⟩
    · exact ((hshows.tasks _ _ h.stored).corrected h.firstKey h.lastKey h.last_nonneg).compress
    · exact hsame.shows (hmarks k t ht) (hshows.tasks k t ht)
  rests _ hnone := h.rests hshows ((keepsTasks_withAdapted h.stored).not_running hnone)

end Taken

end Adapt

/-! ### Repairs -/

section Repair

variable {s : DeviceState}

theorem onlyRests_repair (hheld : s.Holds FixedPair) (hsep : s.Separate)
    (now stored low high : Int) :
    PowerTimeline.OnlyRests s.scheduledPower (s.repair now stored low high).2.scheduledPower :=
  (repair_cases fixedInvariant FixedPair.runningTime_le hheld hsep now stored low high).1

theorem Marks.repair (h : s.Marks) (hheld : s.Holds FixedPair) (hsep : s.Separate)
    (now stored low high : Int) : (s.repair now stored low high).2.Marks := fun _ _ =>
  forall_repaired fixedInvariant FixedPair.runningTime_le hheld hsep
    (fun {k t} _ ht hrests => hrests.marks (h k t ht) (hsep.lasting k t ht)) (·.compress)

theorem Follows.repair (h : s.Follows) (hmarks : s.Marks) (hheld : s.Holds FixedPair)
    (hsep : s.Separate) (now stored low high : Int) :
    (s.repair now stored low high).2.Follows := fun _ _ =>
  forall_repaired fixedInvariant FixedPair.runningTime_le hheld hsep
    (fun {k t} _ ht hrests => hrests.follows (hmarks k t ht) (h k t ht)) (·.compress)

/-- Between two states of a device whole stretches of its tasks have been set to rest. -/
def RestsWholeStretches (s s' : DeviceState) : Prop :=
  ∀ k t, s.tasks.get? k = some t →
    PowerTimeline.RestsWholeStretches s.scheduledPower s'.scheduledPower t

theorem Shows.repair (h : s.Shows) (hmarks : s.Marks) (hheld : s.Holds FixedPair)
    (hsep : s.Separate) {now stored low high : Int}
    (hwhole : s.RestsWholeStretches (s.repair now stored low high).2) :
    (s.repair now stored low high).2.Shows where
  tasks _ _ :=
    forall_repaired fixedInvariant FixedPair.runningTime_le hheld hsep
      (fun {k t} _ ht hrests => hrests.shows (hmarks k t ht) (h.tasks k t ht) (hwhole k t ht))
      (·.compress)
  rests _ hnone :=
    h.rests_of_onlyRests (onlyRests_repair hheld hsep now stored low high)
      ((s.keepsTasks_repair now stored low high).not_running hnone)

end Repair

/-! ### Requests for the schedule -/

/-- A property of timeline and tasks that is kept when a day is created. -/
structure KeptByDays (Q : DeviceState → Prop) : Prop where
  day : ∀ {s : DeviceState} {id start stop stored : Int} {c : DeviceConfig}, Q s →
    s.KeepsTasks (s.withDay id start stop stored c) →
    (s.withDay id start stop stored c).Separate → s.tasks.get? id = none →
    (∀ k t, s.tasks.get? k = some t → ¬ covers start false t) →
    Q (s.withDay id start stop stored c)
  flexibilities : ∀ {s s' : DeviceState}, Q s →
    s' = { s with flexibilities := s'.flexibilities } → Q s'

section Request

variable {s s' : DeviceState} {Q : DeviceState → Prop} {time now stored start stop : Int}
  {stopIncluded : Bool} {zone : Zone} {c : DeviceConfig}

/-- A day is created only where no task is running at its start. -/
theorem KeptByDays.ensureDay (hQ : KeptByDays Q) (h : Q s) (hheld : s.Holds FixedPair)
    (hroom : s.HasRoom) (hsep : (s.ensureDay time stopIncluded now stored zone c).2.Separate) :
    Q (s.ensureDay time stopIncluded now stored zone c).2 := by
  by_cases hcovered : ∃ k t, s.tasks.get? k = some t ∧
      covers (Calendar.startOfDay zone time) false t
  · obtain ⟨k, t, ht, hcovers⟩ := hcovered
    rw [ensureDay_of_covered ht hcovers]
    exact h
  · rcases s.ensureDay_cases time stopIncluded now stored zone c with
      ⟨k, t, -, -, heq⟩ | ⟨energy, heq⟩
    · rw [heq]
      exact h
    · -- The id is free, so the new task replaces none.
      rw [heq] at hsep ⊢
      exact hQ.day h (keepsTasks_withDay (hheld.nextId_free hroom.size_le).2) hsep
        (hheld.nextId_free hroom.size_le).2 fun k t ht hcovers => hcovered ⟨k, t, ht, hcovers⟩

/-- The states on the way have room and are separate, as the last one is. -/
theorem KeptByDays.getSchedule (hQ : KeptByDays Q) (h : Q s) (hheld : s.Holds FixedPair)
    {device : DeviceId} {summary : ScheduleSummary}
    (hs' : s.getSchedule device start stop now stored zone c = .ok (summary, s'))
    (hroom : s'.HasRoom) (hsep : s'.Separate) : Q s' := by
  have hop : DeviceOperation.Corrects (.getSchedule device start stop now stored zone c) := trivial
  have heq := getSchedule_days fixedInvariant hheld hop hs'
  obtain ⟨hroom₀, hroom₁, -, hkept⟩ := hroom.getSchedule fixedInvariant hheld hop hs'
  have htasks : s'.tasks = (s.ensureDays start stop now stored zone c).2.tasks := by
    rw [heq]
  have hsep₂ : (s.ensureDays start stop now stored zone c).2.Separate := by
    constructor
    · rw [← htasks]
      exact hsep.lasting
    · rw [← htasks]
      exact hsep.apart
  have h₁ : Q (s.ensureDay start false now stored zone c).2 :=
    hQ.ensureDay h hheld hroom₀ (hsep.of_keepsTasks hkept)
  exact hQ.flexibilities
    (hQ.ensureDay h₁ (hheld.ensureDay fixedInvariant hop (.inl rfl) false) hroom₁ hsep₂) heq

end Request

/-! ### Runs -/

/-- A property of timeline and tasks that is kept by new days, by corrections, and by those
    repairs that relate the states before and after them as `mends` says. -/
structure KeptByCorrections (mends : DeviceState → DeviceState → Prop) (Q : DeviceState → Prop) :
    Prop extends KeptByDays Q where
  taken : ∀ {s : DeviceState} {f : Flexibility} {task : Task} {update : PowerProfile}
    {first last : Int}, Q s → s.Separate → Taken s f task update first last →
    Q (s.withAdapted f task update first last)
  repaired : ∀ {s : DeviceState} {now stored low high : Int}, Q s → s.Holds FixedPair →
    s.Separate → mends s (s.repair now stored low high).2 → Q (s.repair now stored low high).2

theorem keptByCorrections_follows :
    KeptByCorrections (fun _ _ => True) fun s => s.Marks ∧ s.Follows where
  day h _ _ _ huncovered := ⟨h.1.withDay huncovered, h.2.withDay h.1 huncovered⟩
  flexibilities h heq := by
    rw [heq]
    exact h
  taken h hsep htaken := ⟨htaken.marks h.1 hsep, htaken.follows h.1 hsep h.2⟩
  repaired h hheld hsep _ := ⟨h.1.repair hheld hsep _ _ _ _, h.2.repair h.1 hheld hsep _ _ _ _⟩

theorem keptByCorrections_shows :
    KeptByCorrections RestsWholeStretches fun s => s.Marks ∧ s.Shows where
  day h hkept hsep hnew huncovered :=
    ⟨h.1.withDay huncovered, h.2.withDay h.1 hkept hsep hnew huncovered⟩
  flexibilities h heq := by
    rw [heq]
    exact ⟨h.1, h.2.tasks, h.2.rests⟩
  taken h hsep htaken := ⟨htaken.marks h.1 hsep, htaken.shows h.1 hsep h.2⟩
  repaired h hheld hsep hwhole :=
    ⟨h.1.repair hheld hsep _ _ _ _, h.2.repair h.1 hheld hsep hwhole⟩

/-- States that requests, corrections and repairs lead to, every repair relating the states
    before and after it as `mends` says. -/
inductive Corrected (mends : DeviceState → DeviceState → Prop) : DeviceState → Prop
  | fresh : Corrected mends DeviceState.fresh
  | step {s : DeviceState} {op : DeviceOperation} : Corrected mends s → op.Corrects →
      (∀ now stored low high, op = .repair now stored low high → mends s (op.perform s)) →
      Corrected mends (op.perform s)

section Runs

variable {mends : DeviceState → DeviceState → Prop} {Q : DeviceState → Prop} {s : DeviceState}
  {op : DeviceOperation}

theorem Corrected.reachable (h : Corrected mends s) : Reachable DeviceOperation.Corrects s := by
  induction h with
  | fresh => exact .fresh
  | step _ hop _ ih => exact ih.step hop

theorem Reachable.corrected (h : Reachable DeviceOperation.Corrects s) :
    Corrected (fun _ _ => True) s := by
  induction h with
  | fresh => exact .fresh
  | step _ hop ih => exact ih.step hop fun _ _ _ _ _ => trivial

/-- A correction either changes nothing or has been taken. -/
theorem adapt_taken (hheld : s.Holds FixedPair) {id : Int} {update : PowerProfile}
    (hop : DeviceOperation.Corrects (.adapt id update)) :
    (s.adapt id update).2 = s ∨ ∃ f task first last, Taken s f task update first last ∧
      (s.adapt id update).2 = s.withAdapted f task update first last := by
  rcases s.adapt_cases id update with
    ⟨-, heq⟩ | ⟨f, task, first, last, hf, -, htask, hfirst, hlast, hfits, heq⟩
  · exact .inl heq
  · right
    obtain ⟨t, ht, hpair⟩ := hheld.paired.of_flexibility hf
    have hid := hpair.assigned
    rw [hid, ht, Option.some.injEq] at htask
    subst htask
    exact ⟨f, t, first, last, ⟨hid ▸ ht, hid ▸ hpair, hfirst, hlast, hop, hfits⟩, by rw [heq]⟩

/-- Tasks stay, so there was room before if there is. -/
theorem HasRoom.perform (hroom : (op.perform s).HasRoom) (hheld : s.Holds FixedPair)
    (hop : op.Corrects) : s.HasRoom ∧ s.KeepsTasks (op.perform s) := by
  cases op with
  | getSchedule device start stop now stored zone c =>
      simp only [DeviceOperation.perform] at hroom ⊢
      cases hs' : s.getSchedule device start stop now stored zone c with
      | error e =>
          rw [hs'] at hroom
          exact ⟨hroom, .refl s⟩
      | ok answer =>
          rw [hs'] at hroom
          obtain ⟨hroom₀, -, hkept, hkept'⟩ := hroom.getSchedule fixedInvariant hheld hop hs'
          exact ⟨hroom₀, hkept.trans hkept'⟩
  | adapt id update =>
      have hkept := s.keepsTasks_adapt id update
      exact ⟨hroom.of_size_le hkept.size_le, hkept⟩
  | repair now stored low high =>
      have hkept := s.keepsTasks_repair now stored low high
      exact ⟨hroom.of_size_le hkept.size_le, hkept⟩
  | _ => exact hop.elim

/-- One operation. -/
theorem KeptByCorrections.perform (hQ : KeptByCorrections mends Q) (h : Q s)
    (hheld : s.Holds FixedPair) (hsep : s.Separate) (hop : op.Corrects)
    (hmends : ∀ now stored low high, op = .repair now stored low high → mends s (op.perform s))
    (hroom' : (op.perform s).HasRoom) (hsep' : (op.perform s).Separate) : Q (op.perform s) := by
  cases op with
  | getSchedule device start stop now stored zone c =>
      simp only [DeviceOperation.perform] at hroom' hsep' ⊢
      cases hs' : s.getSchedule device start stop now stored zone c with
      | error e => exact h
      | ok answer =>
          rw [hs'] at hroom' hsep'
          exact hQ.getSchedule h hheld hs' hroom' hsep'
  | adapt id update =>
      simp only [DeviceOperation.perform]
      rcases adapt_taken hheld hop with heq | ⟨f, task, first, last, htaken, heq⟩
      · rw [heq]
        exact h
      · rw [heq]
        exact hQ.taken h hsep htaken
  | repair now stored low high =>
      exact hQ.repaired h hheld hsep (hmends now stored low high rfl)
  | _ => exact hop.elim

/-- What corrections keep holds in every state that they lead to, as long as there are ids left
    and no two tasks overlap. -/
theorem Corrected.holds (hQ : KeptByCorrections mends Q) (hfresh : Q DeviceState.fresh)
    (hs : Corrected mends s) (hroom : s.HasRoom) (hsep : s.Separate) : Q s := by
  induction hs with
  | fresh => exact hfresh
  | step hs hop hmends ih =>
      -- Tasks are kept, so what holds of all tasks in the end held of those before.
      have hheld := hs.reachable.holds fixedInvariant
      obtain ⟨hroom₀, hkept⟩ := hroom.perform hheld hop
      have hsep₀ := hsep.of_keepsTasks hkept
      exact hQ.perform (ih hroom₀ hsep₀) hheld hsep₀ hop hmends hroom hsep

end Runs

/-- Where a task and the timeline differ after corrections and repairs, the task rests. They
    agree at every instant at which the task is running if every repair has set whole stretches
    of constant power to rest. -/
theorem timeline_follows_tasks {s : DeviceState} (hs : Reachable DeviceOperation.Corrects s)
    (hroom : s.HasRoom) (hsep : s.Separate) {k : Int} {t : Task} (ht : s.tasks.get? k = some t)
    {time : Int} (hruns : t.isRunning time) :
    (s.powerAt time = t.powerAt (time - t.startingTime) ∨
        t.powerAt (time - t.startingTime) = 0) ∧
      (Corrected RestsWholeStretches s → s.powerAt time = t.powerAt (time - t.startingTime)) := by
  rw [Task.isRunning_iff, Task.stop] at hruns
  have hback : t.startingTime + (time - t.startingTime) = time := by omega
  have hnone : ∀ k t, DeviceState.fresh.tasks.get? k = some t → False := fun k t ht => by cases ht
  constructor
  · obtain ⟨-, hfollows⟩ := hs.corrected.holds keptByCorrections_follows
      ⟨fun k t ht => (hnone k t ht).elim, fun k t ht => (hnone k t ht).elim⟩ hroom hsep
    have hcase := hfollows k t ht (time - t.startingTime) (by omega) (by omega)
    rwa [hback] at hcase
  · intro hwhole
    obtain ⟨-, hshows⟩ := hwhole.holds keptByCorrections_shows
      ⟨fun k t ht => (hnone k t ht).elim, fun k t ht => (hnone k t ht).elim, fun _ _ => rfl⟩
      hroom hsep
    have hcase := hshows.tasks k t ht (time - t.startingTime) (by omega) (by omega)
    rwa [hback] at hcase

/-- Only a breakpoint that repeats the power before it can end a repair too early. -/
theorem restsWholeStretches_repair {s : DeviceState} (hheld : s.Holds FixedPair)
    (hsep : s.Separate) (now stored low high : Int)
    (hchanges : ∀ k t, s.tasks.get? k = some t → ∀ j ∈ s.scheduledPower.keys,
      t.startingTime < j → j < t.stop → s.powerAt j ≠ s.powerAt (j - 1)) :
    s.RestsWholeStretches (s.repair now stored low high).2 := by
  intro k t ht
  apply (onlyRests_repair hheld hsep now stored low high).restsWholeStretches
  intro j hj hstart hstop hsame
  exact absurd hsame (hchanges k t ht j hj hstart hstop)

/-- In UTC tasks never overlap while they are corrected. -/
theorem separate_of_utc {s : DeviceState}
    (hs : Reachable (fun op => op.Corrects ∧ op.InUtc) s) : s.Separate := by
  refine separate_of_wholeDays (hs.mono fun op hop => ?_)
  cases op with
  | schedule => exact hop.1.elim
  | _ => exact hop.2

/-- A battery that is nearly full is charged with 500 W for eleven minutes. The repair sets the
    first ten to rest, after which there is room for the eleventh. -/
def tenMinutesRested : DeviceState :=
  [.adapt 0 (.ofList [(0, 500), (600, 500), (660, 0)]),
   .repair 86400 5350 600 5400].foldl DeviceOperation.perform dayOffered

/-- The profile has been compressed, so that the task rests in the eleventh minute as well. -/
theorem timeline_goes_on_without_task :
    ∃ s : DeviceState, ∃ t : Task, ∃ time : Int,
      Reachable (fun op => op.Corrects ∧ op.InUtc) s ∧ s.tasks.get? 0 = some t ∧
      86400 ≤ time ∧ t.isRunning time ∧ s.powerAt time ≠ t.powerAt (time - t.startingTime) := by
  refine ⟨tenMinutesRested, _, 87000, ?_, rfl, by decide, by decide +kernel, by decide +kernel⟩
  have hoffered : Reachable (fun op => op.Corrects ∧ op.InUtc) dayOffered :=
    .step .fresh ⟨trivial, rfl⟩
  refine hoffered.foldl _ fun op hop => ?_
  simp only [List.mem_cons, List.not_mem_nil, or_false] at hop
  rcases hop with rfl | rfl
  · exact ⟨show ∀ k ∈ (OrderedMap.ofList [(0, 500), (600, 500), (660, 0)]).keys, (0 : Int) ≤ k
      by decide, trivial⟩
  · exact ⟨trivial, trivial⟩

/-- Charging with 1000 W for one hour and with 500 W for another one. -/
def twoHoursCharged : DeviceState := DeviceOperation.perform dayOffered
  (.adapt 0 (.ofList [(0, 1000), (3600, 500), (7200, 0)]))

/-- A repair that sets the second hour to rest keeps timeline and task alike. -/
theorem timeline_follows_tasks_secondHour :
    ∃ t, (twoHoursCharged.repair 86400 4000 600 5400).2.tasks.get? 0 = some t ∧
      ∀ time, t.isRunning time → (twoHoursCharged.repair 86400 4000 600 5400).2.powerAt time
        = t.powerAt (time - t.startingTime) := by
  have hkeys : ∀ k ∈ (OrderedMap.ofList [(0, 1000), (3600, 500), (7200, 0)]).keys,
      (0 : Int) ≤ k := by decide
  have hcharged : Reachable (fun op => op.Corrects ∧ op.InUtc) twoHoursCharged :=
    .step (.step .fresh ⟨trivial, rfl⟩) ⟨hkeys, trivial⟩
  have hrested : Reachable (fun op => op.Corrects ∧ op.InUtc)
      (DeviceOperation.perform twoHoursCharged (.repair 86400 4000 600 5400)) :=
    hcharged.step ⟨trivial, trivial⟩
  -- Every breakpoint after the start of the task changes the power.
  have hstart : ∀ t ∈ twoHoursCharged.tasks.values, t.startingTime = 86400 := by decide +kernel
  have hchanges : ∀ j ∈ twoHoursCharged.scheduledPower.keys, 86400 < j →
      twoHoursCharged.powerAt j ≠ twoHoursCharged.powerAt (j - 1) := by decide +kernel
  have hwhole : twoHoursCharged.RestsWholeStretches
      (twoHoursCharged.repair 86400 4000 600 5400).2 := by
    apply restsWholeStretches_repair
      ((hcharged.mono fun _ hop => hop.1).holds fixedInvariant) (separate_of_utc hcharged)
    intro k t ht j hj hlt _
    refine hchanges j hj ?_
    rwa [hstart t (OrderedMap.mem_values_iff_get?.2 ⟨k, ht⟩)] at hlt
  have hcorrected : Corrected RestsWholeStretches
      (DeviceOperation.perform twoHoursCharged (.repair 86400 4000 600 5400)) := by
    refine .step (.step (.step .fresh trivial ?_) hkeys ?_) trivial ?_
    · exact fun _ _ _ _ hop => by cases hop
    · exact fun _ _ _ _ hop => by cases hop
    · exact fun _ _ _ _ _ => hwhole
  have hroom : (twoHoursCharged.repair 86400 4000 600 5400).2.HasRoom := by
    rw [HasRoom]
    decide +kernel
  obtain ⟨t, ht⟩ : ∃ t, (twoHoursCharged.repair 86400 4000 600 5400).2.tasks.get? 0 = some t :=
    Option.isSome_iff_exists.1 (by decide +kernel)
  refine ⟨t, ht, fun time hruns => ?_⟩
  exact (timeline_follows_tasks (hrested.mono fun _ hop => hop.1) hroom
    (separate_of_utc hrested) ht hruns).2 hcorrected

end DeviceState
end SiteDispatch
