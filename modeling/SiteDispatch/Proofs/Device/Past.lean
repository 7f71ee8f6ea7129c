/-
  SiteDispatch.Proofs.Device.Past

  When the past of a device decides whether its future may be corrected.

  Two schedules are compared that differ in nothing but the power of one started task before the
  present. Asked for the schedule, both devices create the same days and derive the same corridors,
  because everything that goes into them is read off the timeline from the present on. Of the past
  the corridors offer nothing but rest, and a correction is validated from the first second of its
  task: a device that has charged or discharged since is refused whatever it asks for.
-/

import SiteDispatch.Proofs.Device.Limits
import SiteDispatch.Proofs.Device.Requests
import SiteDispatch.Proofs.Device.Tasks
import SiteDispatch.Proofs.Device.WellFormed
import SiteDispatch.Proofs.Flexibility.Past

namespace SiteDispatch

open PowerProfile

namespace DeviceState

/-! ## Schedules with the same future -/

/-- `s'` differs from `s` in the power of task `k` before `now` only: there the task is `t` with
    the profile `power` instead, and the timeline may differ while it has been running. Both
    timelines have an entry since the task began, so that nothing earlier is in force. -/
structure SameButPast (k now : Int) (t : Task) (power : PowerProfile) (s s' : DeviceState) :
    Prop where
  idCounter : s'.idCounter = s.idCounter
  targetSoc : s'.targetSoc = s.targetSoc
  targetSocTime : s'.targetSocTime = s.targetSocTime
  flexibilities : s'.flexibilities = s.flexibilities
  found : s.tasks.get? k = some t
  tasks : s'.tasks = s.tasks.modify k fun u => { u with power := power }
  profile : SameFrom (now - t.startingTime) t.power power
  timeline : SameFrom now s.scheduledPower s'.scheduledPower
  elsewhere : ∀ j, j < t.startingTime ∨ t.stop ≤ j →
    s'.scheduledPower.get? j = s.scheduledPower.get? j
  marked : ∃ j ∈ s.scheduledPower.keys, t.startingTime ≤ j ∧ j ≤ now
  marked' : ∃ j ∈ s'.scheduledPower.keys, t.startingTime ≤ j ∧ j ≤ now

namespace SameButPast

variable {k now stored : Int} {t : Task} {power : PowerProfile} {s s' : DeviceState} {c : DeviceConfig}

theorem started (h : SameButPast k now t power s s') : t.startingTime ≤ now := by
  obtain ⟨j, -, hj, hjn⟩ := h.marked
  omega

theorem found' (h : SameButPast k now t power s s') :
    s'.tasks.get? k = some { t with power := power } := by
  rw [h.tasks, OrderedMap.get?_modify, if_pos rfl, h.found]
  rfl

theorem symm (h : SameButPast k now t power s s') :
    SameButPast k now { t with power := power } t.power s' s where
  idCounter := h.idCounter.symm
  targetSoc := h.targetSoc.symm
  targetSocTime := h.targetSocTime.symm
  flexibilities := h.flexibilities.symm
  found := h.found'
  tasks := by
    apply OrderedMap.ext_get?
    intro j
    rw [h.tasks, OrderedMap.get?_modify, OrderedMap.get?_modify]
    by_cases hj : j = k
    · rw [if_pos hj, if_pos hj, hj, h.found]
      rfl
    · rw [if_neg hj, if_neg hj]
  profile := h.profile.symm
  timeline := h.timeline.symm
  elsewhere j hj := (h.elsewhere j hj).symm
  marked := h.marked'
  marked' := h.marked

/-! ### What is read off both -/

theorem taskIdAt?_eq (h : SameButPast k now t power s s') (time : Int) (stopIncluded : Bool) :
    s'.taskIdAt? time stopIncluded = s.taskIdAt? time stopIncluded := by
  rw [taskIdAt?, taskIdAt?, h.tasks]
  exact s.tasks.find?_values_modify k (fun _ => rfl) (fun _ => rfl)

theorem nextId_eq (h : SameButPast k now t power s s') : s'.nextId = s.nextId := by
  have hkeys : s'.tasks.keys = s.tasks.keys := by rw [h.tasks, OrderedMap.keys_modify]
  have hcontains : ∀ id, s'.tasks.contains id = s.tasks.contains id := fun id => by
    rw [Bool.eq_iff_iff, OrderedMap.contains_iff_mem_keys, OrderedMap.contains_iff_mem_keys, hkeys]
  have hsize : s'.tasks.size = s.tasks.size := by
    rw [← OrderedMap.length_keys, ← OrderedMap.length_keys, hkeys]
  rw [nextId, nextId, h.flexibilities, h.idCounter, hsize]
  simp only [hcontains]

theorem expectedEnergy_eq (h : SameButPast k now t power s s') (time : Int) :
    s'.expectedEnergy now time stored = s.expectedEnergy now time stored := by
  rw [expectedEnergy, expectedEnergy, h.timeline.energyBetween]

theorem socTargetActive_eq (h : SameButPast k now t power s s') :
    s'.socTargetActive now = s.socTargetActive now := by
  rw [socTargetActive, socTargetActive, h.targetSoc, h.targetSocTime]

/-! ### New days -/

/-- A day that begins while the task does not run is the same entry of both timelines. -/
theorem withDay (h : SameButPast k now t power s s') {id start stop energy : Int} (hid : id ≠ k)
    (hstart : start < t.startingTime ∨ t.stop ≤ start) :
    SameButPast k now t power (s.withDay id start stop energy c)
      (s'.withDay id start stop energy c) where
  idCounter := rfl
  targetSoc := h.targetSoc
  targetSocTime := h.targetSocTime
  flexibilities := by
    show s'.flexibilities.insert id _ = s.flexibilities.insert id _
    rw [h.flexibilities]
  found := (OrderedMap.get?_insert_of_ne hid.symm).trans h.found
  tasks := by
    apply OrderedMap.ext_get?
    intro j
    show (s'.tasks.insert id _).get? j = ((s.tasks.insert id _).modify k _).get? j
    rw [h.tasks, OrderedMap.get?_insert, OrderedMap.get?_modify, OrderedMap.get?_modify,
      OrderedMap.get?_insert]
    by_cases hj : j = id
    · rw [if_pos hj, if_neg (hj ▸ hid), if_pos hj]
    · rw [if_neg hj, if_neg hj]
  profile := h.profile
  timeline := by
    refine h.timeline.insertNew 0 ?_
    rcases hstart with hbefore | hbehind
    · -- Since the task began both have entries that follow.
      obtain ⟨j, hj, hstart, hnow⟩ := h.marked
      obtain ⟨j', hj', hstart', hnow'⟩ := h.marked'
      exact .inr (.inr ⟨⟨j, hj, by omega, hnow⟩, ⟨j', hj', by omega, hnow'⟩⟩)
    · exact .inr (.inl fun j hj => h.elsewhere j (.inr (by omega)))
  elsewhere j hj := by
    show (s'.scheduledPower.insertNew start 0).get? j = (s.scheduledPower.insertNew start 0).get? j
    rw [OrderedMap.get?_insertNew, OrderedMap.get?_insertNew, h.elsewhere j hj]
  marked := by
    obtain ⟨j, hj, hmarked⟩ := h.marked
    exact ⟨j, OrderedMap.mem_keys_insertNew.2 (.inr hj), hmarked⟩
  marked' := by
    obtain ⟨j, hj, hmarked⟩ := h.marked'
    exact ⟨j, OrderedMap.mem_keys_insertNew.2 (.inr hj), hmarked⟩

/-- Both devices create the same day, or neither does. -/
theorem addDay (h : SameButPast k now t power s s') (hnew : s.nextId ≠ k) (start stop energy : Int) :
    (s'.addDay start stop energy c).1 = (s.addDay start stop energy c).1 ∧
      SameButPast k now t power (s.addDay start stop energy c).2
        (s'.addDay start stop energy c).2 := by
  have hid := h.taskIdAt?_eq start false
  cases hcovered : s.taskIdAt? start false with
  | some id =>
      rw [hcovered] at hid
      simp only [DeviceState.addDay, hcovered, hid]
      exact ⟨trivial, h⟩
  | none =>
      rw [hcovered] at hid
      -- The first instant of the day is not covered by the task either.
      have hstart : start < t.startingTime ∨ t.stop ≤ start := by
        rw [taskIdAt?, Option.map_eq_none_iff, List.find?_eq_none] at hcovered
        have hnot := hcovered t (OrderedMap.mem_values_iff_get?.2 ⟨k, h.found⟩)
        rw [covers_iff] at hnot
        omega
      have heq : s.addDay start stop energy c
          = (s.nextId, s.withDay s.nextId start stop energy c) := by
        simp [DeviceState.addDay, hcovered, DeviceState.withDay, offeredDay]
      have heq' : s'.addDay start stop energy c
          = (s.nextId, s'.withDay s.nextId start stop energy c) := by
        simp [DeviceState.addDay, hid, h.nextId_eq, DeviceState.withDay, offeredDay]
      rw [heq, heq']
      exact ⟨rfl, h.withDay hnew hstart⟩

variable {zone : Zone} {P : Int → Flexibility → Task → Prop}

theorem ensureDay (h : SameButPast k now t power s s') (hheld : s.Holds P) (hroom : s.HasRoom)
    (time : Int) (stopIncluded : Bool) :
    (s'.ensureDay time stopIncluded now stored zone c).1
        = (s.ensureDay time stopIncluded now stored zone c).1 ∧
      SameButPast k now t power (s.ensureDay time stopIncluded now stored zone c).2
        (s'.ensureDay time stopIncluded now stored zone c).2 := by
  have hnew : s.nextId ≠ k := by
    rintro rfl
    have hfree := (hheld.nextId_free hroom.size_le).2
    rw [h.found] at hfree
    cases hfree
  have hid := h.taskIdAt?_eq time stopIncluded
  cases hcovered : s.taskIdAt? time stopIncluded with
  | some id =>
      rw [hcovered] at hid
      simp only [DeviceState.ensureDay, hcovered, hid]
      exact ⟨trivial, h⟩
  | none =>
      rw [hcovered] at hid
      simp only [DeviceState.ensureDay, hcovered, hid, h.expectedEnergy_eq]
      exact h.addDay hnew _ _ _

theorem ensureDays {start stop : Int} (h : SameButPast k now t power s s') (hheld : s.Holds P)
    (hheld₁ : (s.ensureDay start false now stored zone c).2.Holds P) (hroom : s.HasRoom)
    (hroom₁ : (s.ensureDay start false now stored zone c).2.HasRoom) :
    (s'.ensureDays start stop now stored zone c).1 = (s.ensureDays start stop now stored zone c).1 ∧
      SameButPast k now t power (s.ensureDays start stop now stored zone c).2
        (s'.ensureDays start stop now stored zone c).2 := by
  obtain ⟨hfirst, h₁⟩ := h.ensureDay hheld hroom start false
  obtain ⟨hlast, h₂⟩ := h₁.ensureDay hheld₁ hroom₁ stop true
  refine ⟨?_, h₂⟩
  simp only [DeviceState.ensureDays, hfirst, hlast]

end SameButPast

/-! ## The same corridors -/

/-- The corridors that a request derives for a task. -/
def offer (s : DeviceState) (task : Task) (now stored : Int) (c : DeviceConfig) :
    Except Halt (Corridor × Corridor) :=
  if task.startingTime ≤ now then do
    let offerFrom := if s.socTargetActive now then s.targetSocTime else now
    let offset ← Halt.clamp 0 task.runningTime (offerFrom - task.startingTime)
    return (startedPower offset c.powerRange,
      startedEnergy offset (c.energyWindow (s.expectedEnergy now offerFrom stored)))
  else do
    let energy := OrderedMap.singleton 0
      (c.energyWindow (s.expectedEnergy now task.startingTime stored))
    if s.socTargetActive now && task.startingTime < s.targetSocTime then
      let offset ← Halt.clamp 0 task.runningTime (s.targetSocTime - task.startingTime)
      return (startedPower offset c.powerRange, energy)
    else return (.singleton 0 c.powerRange, energy)

theorem refresh_eq_offer (s : DeviceState) (task : Task) (now stored : Int) (c : DeviceConfig) :
    s.refresh task now stored c = (s.offer task now stored c).map fun corridors =>
      s.setCorridors task.flexibilityId corridors.1 corridors.2 := by
  rw [refresh, offer]
  split
  · rw [refreshStarted]
    dsimp only
    cases Halt.clamp 0 task.runningTime
      ((if s.socTargetActive now then s.targetSocTime else now) - task.startingTime) with
    | error halt => rfl
    | ok offset => rfl
  · rw [refreshFuture]
    dsimp only
    split
    · cases Halt.clamp 0 task.runningTime (s.targetSocTime - task.startingTime) with
      | error halt => rfl
      | ok offset => rfl
    · rfl

/-- What an answer consists of. -/
theorem getSchedule_of_refreshed {s s' : DeviceState} (device : DeviceId)
    {start stop now stored : Int} {zone : Zone} {c : DeviceConfig} (hle : start ≤ stop)
    (hrange : stop - start ≤ maxScheduleRange)
    (h : refreshAll now stored c (s.ensureDays start stop now stored zone c).1
      (s.ensureDays start stop now stored zone c).2 = .ok s') :
    s.getSchedule device start stop now stored zone c = .ok
      ({ device := device
         start := start
         stop := stop
         taskIds := (s.ensureDays start stop now stored zone c).1
         flexibilityIds := (s.ensureDays start stop now stored zone c).1.filterMap fun id =>
           ((s.ensureDays start stop now stored zone c).2.tasks.get? id).map (·.flexibilityId)
         constraints := [] }, s') := by
  simp only [ensureDays] at h ⊢
  rw [getSchedule, if_neg (by omega), if_neg (by omega)]
  simp only [h]

namespace SameButPast

variable {k now stored : Int} {t : Task} {power : PowerProfile} {s s' r : DeviceState}
  {c : DeviceConfig}

theorem setCorridors (h : SameButPast k now t power s s') (id : Int) (power' energy : Corridor) :
    SameButPast k now t power (s.setCorridors id power' energy)
      (s'.setCorridors id power' energy) :=
  { h with
    flexibilities := by simp only [DeviceState.setCorridors, h.flexibilities] }

theorem offer_eq (h : SameButPast k now t power s s') (u : Task) (q : PowerProfile) :
    s'.offer { u with power := q } now stored c = s.offer u now stored c := by
  simp only [offer, h.socTargetActive_eq, h.targetSocTime, h.expectedEnergy_eq]

/-- The tasks under one id differ in their power at most. -/
theorem get?_tasks (h : SameButPast k now t power s s') (id : Int) :
    (s.tasks.get? id = none ∧ s'.tasks.get? id = none) ∨
      ∃ u q, s.tasks.get? id = some u ∧ s'.tasks.get? id = some { u with power := q } := by
  rw [h.tasks, OrderedMap.get?_modify]
  cases hu : s.tasks.get? id with
  | none => exact .inl ⟨rfl, by split <;> rfl⟩
  | some u =>
      right
      by_cases hid : id = k
      · exact ⟨u, power, rfl, by rw [if_pos hid]; rfl⟩
      · exact ⟨u, u.power, rfl, by rw [if_neg hid]⟩

theorem refreshAll (h : SameButPast k now t power s s') {ids : List Int}
    (hr : DeviceState.refreshAll now stored c ids s = .ok r) :
    ∃ r', DeviceState.refreshAll now stored c ids s' = .ok r' ∧ SameButPast k now t power r r' := by
  induction ids generalizing s s' with
  | nil =>
      cases hr
      exact ⟨s', rfl, h⟩
  | cons id rest ih =>
      rw [DeviceState.refreshAll] at hr ⊢
      rcases h.get?_tasks id with ⟨hnone, hnone'⟩ | ⟨u, q, hu, hu'⟩
      · rw [hnone] at hr
        rw [hnone']
        exact ih h hr
      · rw [hu] at hr
        rw [hu']
        obtain ⟨s₁, hs₁, hrest⟩ := bind_eq_ok_iff.1 hr
        rw [refresh_eq_offer] at hs₁
        -- What is offered does not depend on the power of the task.
        cases hoffer : s.offer u now stored c with
        | error halt =>
            rw [hoffer] at hs₁
            cases hs₁
        | ok corridors =>
            rw [hoffer] at hs₁
            cases hs₁
            obtain ⟨r', hr', hsame⟩ :=
              ih (h.setCorridors u.flexibilityId corridors.1 corridors.2) hrest
            refine ⟨r', bind_eq_ok_iff.2 ⟨_, ?_, hr'⟩, hsame⟩
            rw [refresh_eq_offer, h.offer_eq, hoffer]
            rfl

/-- Asked for the schedule, both devices give the same answer and still differ in nothing but the
    past. -/
theorem getSchedule {P : Int → Flexibility → Task → Prop} {allowed : DeviceOperation → Prop}
    {device : DeviceId} {start stop : Int} {zone : Zone} {summary : ScheduleSummary}
    (h : SameButPast k now t power s s') (hinv : PairInvariant allowed P) (hheld : s.Holds P)
    (hop : allowed (.getSchedule device start stop now stored zone c)) (hroom : r.HasRoom)
    (hr : s.getSchedule device start stop now stored zone c = .ok (summary, r)) :
    ∃ r', s'.getSchedule device start stop now stored zone c = .ok (summary, r') ∧
      SameButPast k now t power r r' := by
  obtain ⟨hroom₀, hroom₁, -, -⟩ := hroom.getSchedule hinv hheld hop hr
  obtain ⟨hle, hrange, -, -, hrefresh⟩ := getSchedule_eq_ok hr
  have hheld₁ := hheld.ensureDay hinv hop (.inl rfl) false
  obtain ⟨hids, hdays⟩ := h.ensureDays hheld hheld₁ hroom₀ hroom₁
  obtain ⟨r', hr', hsame⟩ := hdays.refreshAll hrefresh
  refine ⟨r', ?_, hsame⟩
  -- The flexibilities that are listed are those of the same tasks.
  have hlisted : ∀ id, ((s'.ensureDays start stop now stored zone c).2.tasks.get? id).map
      (·.flexibilityId) = ((s.ensureDays start stop now stored zone c).2.tasks.get? id).map
      (·.flexibilityId) := by
    intro id
    rcases hdays.get?_tasks id with ⟨hu, hu'⟩ | ⟨u, q, hu, hu'⟩
    · rw [hu, hu']
    · rw [hu, hu']
      rfl
  rw [← hids] at hr'
  rw [getSchedule_of_refreshed device hle hrange hrefresh] at hr
  cases hr
  rw [getSchedule_of_refreshed device hle hrange hr', hids]
  simp only [hlisted]

end SameButPast

/-! ## The same correction -/

/-- Before `now` nothing is offered of a started task, as long as it runs. -/
theorem Refreshed.offered_from {s : DeviceState} {now stored : Int} {c : DeviceConfig} {t : Task}
    {f : Flexibility} (h : Refreshed s now stored c t f) (hstarted : t.startingTime ≤ now) :
    ∃ offset, f.powerCorridor = startedPower offset c.powerRange ∧
      min (now - t.startingTime) t.runningTime ≤ offset := by
  cases hsoc : s.socTargetActive now with
  | false =>
      obtain ⟨-, hpower, -⟩ := h.started hstarted hsoc
      exact ⟨_, hpower, Int.le_refl _⟩
  | true =>
      -- An active charge target lies ahead.
      have htarget : now < s.targetSocTime := by
        rw [socTargetActive, Bool.and_eq_true, decide_eq_true_eq, decide_eq_true_eq] at hsoc
        exact hsoc.2
      obtain ⟨-, hpower⟩ := h.blocked hsoc (by omega)
      exact ⟨_, hpower, by omega⟩

/-- How a correction of a known task is refused does not depend on the task. -/
theorem adapt_refused {s : DeviceState} {id : Int} {update : PowerProfile} {f : Flexibility}
    {t : Task} (hf : s.flexibilities.get? id = some f) (ht : s.tasks.get? f.taskId = some t)
    (hrefused : (s.adapt id update).1 ≠ .ok) :
    (s.adapt id update).1 = if f.adaptable then .invalidData else .illegal := by
  obtain ⟨answer, hanswer⟩ := exists_adaptAnswer s id update
  rw [hanswer.answer_eq] at hrefused ⊢
  cases hanswer with
  | unknownFlexibility hf' =>
      rw [hf] at hf'
      cases hf'
  | notAdaptable hf' hfixed =>
      rw [hf, Option.some.injEq] at hf'
      rw [hf', hfixed]
      rfl
  | unknownTask hf' _ ht' =>
      rw [hf, Option.some.injEq] at hf'
      rw [← hf', ht] at ht'
      cases ht'
  | empty hf' hadaptable _ _ =>
      rw [hf, Option.some.injEq] at hf'
      rw [hf', hadaptable]
      rfl
  | invalid hf' hadaptable _ _ _ _ _ =>
      rw [hf, Option.some.injEq] at hf'
      rw [hf', hadaptable]
      rfl
  | taken => exact absurd rfl hrefused

/-- The keys of an update are keys of the corrected profile. -/
theorem mem_keys_corrected_of_update (t : Task) {update : PowerProfile} (first last : Int) {j : Int}
    (hj : j ∈ update.keys) : j ∈ (corrected t update first last).2.keys := by
  obtain ⟨v, hv⟩ := OrderedMap.mem_keys_iff_get?.1 hj
  rw [OrderedMap.mem_keys_iff_get?, get?_corrected, get?_corrected_update, hv]
  split
  · exact ⟨_, rfl⟩
  · exact ⟨_, rfl⟩

namespace SameButPast

variable {k now first last : Int} {t : Task} {power update : PowerProfile} {s s' : DeviceState}
  {f : Flexibility}

/-- Two tasks that are the same from now on still are after a correction from now on. -/
theorem corrected (h : SameButPast k now t power s s') (hfirst : update.firstKey? = some first)
    (hlast : update.lastKey? = some last) (hle : now - t.startingTime ≤ first) :
    SameFrom (now - t.startingTime) (corrected t update first last).2
      (corrected { t with power := power } update first last).2 := by
  obtain ⟨hmem, hmin⟩ := OrderedMap.firstKey?_eq_some_iff.1 hfirst
  have hlast' : now - t.startingTime ≤ last :=
    hle.trans (Int.not_lt.1 (hmin last (OrderedMap.lastKey?_eq_some_iff.1 hlast).1))
  have hentries : ∀ j, now - t.startingTime ≤ j →
      (DeviceState.corrected { t with power := power } update first last).2.get? j
        = (DeviceState.corrected t update first last).2.get? j := by
    intro j hj
    rw [get?_corrected, get?_corrected, get?_corrected_update, get?_corrected_update,
      Task.powerAt, Task.powerAt, h.profile.powerAt hlast', h.profile.entries j hj]
  refine ⟨hentries, ?_⟩
  rcases Int.lt_or_eq_of_le hle with hlt | heq
  · rw [powerAt_corrected_of_lt_first hlast hfirst hlt,
      powerAt_corrected_of_lt_first hlast hfirst hlt]
    exact h.profile.present
  · -- The correction begins now.
    have hkey := mem_keys_corrected_of_update t first last hmem
    exact (SameFrom.of_entries hkey heq.ge fun j hj => hentries j (hle.trans hj)).present

/-- A correction that is taken shows that the device has rested until now, and it is taken as well
    by one that has rested otherwise. -/
theorem taken (h : SameButPast k now t power s s') (hf : s.flexibilities.get? k = some f)
    (hpair : SettledPair k f { t with power := power })
    (hoffered : ∃ offset range, f.powerCorridor = startedPower offset range ∧
      min (now - t.startingTime) t.runningTime ≤ offset)
    (hkeys : ∀ j ∈ update.keys, now - t.startingTime ≤ j ∧ j ≤ t.runningTime)
    (hok : (s.adapt k update).1 = .ok) :
    f.RestsUntil (now - t.startingTime) t.power ∧
      (f.RestsUntil (now - t.startingTime) power → (s'.adapt k update).1 = .ok) := by
  rcases s.adapt_cases k update with
    ⟨hrefused, -⟩ | ⟨f', task, first, last, hf', hadaptable, htask, hfirst, hlast, hfits, -⟩
  · exact absurd hok hrefused
  rw [hf, Option.some.injEq] at hf'
  subst hf'
  rw [hpair.assigned, h.found, Option.some.injEq] at htask
  subst htask
  obtain ⟨offset, range, hpower, hoffset⟩ := hoffered
  obtain ⟨hmem, -⟩ := OrderedMap.firstKey?_eq_some_iff.1 hfirst
  obtain ⟨hle, hrun⟩ := hkeys first hmem
  have hsame := h.corrected hfirst hlast hle
  -- Before the correction both profiles are what they were.
  have hbefore : ∀ u : Task, ∀ j, j < now - t.startingTime →
      (DeviceState.corrected u update first last).2.get? j = u.power.get? j := by
    intro u j hj
    rw [get?_corrected, get?_corrected_update_eq_none hfirst hlast (.inl (by omega)),
      Option.none_or, if_pos (.inl (by omega))]
  have hmerged : f.RestsUntil (now - t.startingTime)
      (DeviceState.corrected t update first last).2 :=
    hfits.restsUntil fun i h0 hi => powerAt_eq_zero_of_fits hpower hfits h0 (by omega)
  refine ⟨hmerged.congr fun j hj => (hbefore t j hj).symm, fun hpast => ?_⟩
  have hmerged' := hpast.congr (hbefore { t with power := power })
  have hkey := mem_keys_corrected_of_update t first last hmem
  -- The other task begins with an entry, unless the correction itself begins there.
  have hzero : 0 ∈ (DeviceState.corrected { t with power := power } update first last).2.keys := by
    rcases lt_or_ge 0 (now - t.startingTime) with hpos | hneg
    · rw [OrderedMap.mem_keys_iff_get?, hbefore _ 0 hpos, ← OrderedMap.mem_keys_iff_get?]
      exact (hpair.wellFormed hfits).starts
    · exact (hsame.mem_keys hneg).2 hfits.starts
  have hfits' := hfits.of_sameFrom hsame hmerged hmerged' hzero hkey hle
  rw [adapt_of_fits (h.flexibilities ▸ hf) hadaptable (hpair.assigned ▸ h.found') hfirst hlast hfits']

end SameButPast

section Answers

variable {k now start stop stored : Int} {t : Task} {power : PowerProfile} {s s' s₁ : DeviceState}
  {device : DeviceId} {zone : Zone} {c : DeviceConfig} {summary : ScheduleSummary}

/-- Two devices that differ in nothing but the power of a started task before `now` are both asked
    for the schedule, which they answer alike, and then both to correct the task from now on. The
    answers to that differ exactly if one of the devices takes the correction and only one of them
    has a past at rest: no power before now, and energy bounds at its breakpoints that admit it. -/
theorem adapt_answers_differ_iff (hs : Reachable (fun _ => True) s)
    (hs' : Reachable (fun _ => True) s') (hsame : SameButPast k now t power s s')
    (hget : s.getSchedule device start stop now stored zone c = .ok (summary, s₁))
    (hk : k ∈ summary.taskIds) (hroom : s₁.HasRoom) :
    ∃ f s₁', s'.getSchedule device start stop now stored zone c = .ok (summary, s₁') ∧
      SameButPast k now t power s₁ s₁' ∧ s₁.flexibilities.get? k = some f ∧
      ∀ update : PowerProfile,
        (∀ j ∈ update.keys, now - t.startingTime ≤ j ∧ j ≤ t.runningTime) →
        ((s₁.adapt k update).1 ≠ (s₁'.adapt k update).1 ↔
          ((s₁.adapt k update).1 = .ok ∨ (s₁'.adapt k update).1 = .ok) ∧
          ¬ (f.RestsUntil (now - t.startingTime) t.power ↔
            f.RestsUntil (now - t.startingTime) power)) := by
  have hheld := hs.holds settledInvariant
  have hheld₁ := hheld.getSchedule settledInvariant trivial hget
  obtain ⟨s₁', hget', hsame₁⟩ := hsame.getSchedule settledInvariant hheld trivial hroom hget
  have hheld₁' := (hs'.holds settledInvariant).getSchedule settledInvariant trivial hget'
  obtain ⟨f, hf, hpair⟩ := hheld₁.paired.of_task hsame₁.found
  obtain ⟨f', hf', hpair'⟩ := hheld₁'.paired.of_task hsame₁.found'
  rw [hsame₁.flexibilities, hf, Option.some.injEq] at hf'
  subst hf'
  obtain ⟨offset, hoffered⟩ := (hheld.refreshed settledInvariant trivial hget hk hsame₁.found
    hf).offered_from hsame₁.started
  refine ⟨f, s₁', hget', hsame₁, hf, fun update hkeys => ?_⟩
  -- Either device tells from its own answer what the other one will take.
  have htaken := hsame₁.taken hf hpair' ⟨offset, _, hoffered⟩ hkeys
  have htaken' := hsame₁.symm.taken (hsame₁.flexibilities ▸ hf) hpair ⟨offset, _, hoffered⟩ hkeys
  constructor
  · intro hdiffer
    by_cases hok : (s₁.adapt k update).1 = .ok
    · refine ⟨.inl hok, fun hboth => hdiffer ?_⟩
      rw [hok, (htaken hok).2 (hboth.1 (htaken hok).1)]
    · by_cases hok' : (s₁'.adapt k update).1 = .ok
      · refine ⟨.inr hok', fun hboth => hdiffer ?_⟩
        rw [hok', (htaken' hok').2 (hboth.2 (htaken' hok').1)]
      · refine absurd ?_ hdiffer
        rw [adapt_refused hf (hpair.assigned ▸ hsame₁.found) hok,
          adapt_refused (hsame₁.flexibilities ▸ hf) (hpair.assigned ▸ hsame₁.found') hok']
  · rintro ⟨hone, hnot⟩ heq
    have hok : (s₁.adapt k update).1 = .ok := hone.elim id heq.trans
    exact hnot (iff_of_true (htaken hok).1 (htaken' (heq ▸ hok)).1)

end Answers

/-! ## A morning -/

/-- A day on which 20 W are to be charged for the first three hours. -/
def morningCharged : DeviceState :=
  [DeviceOperation.getSchedule ⟨1⟩ 86400 86410 0 3000 Zone.utc smallBattery,
    .schedule 0 86400 (.ofList [(0, 20), (10800, 0), (86400, 0)]) 0].foldl DeviceOperation.perform
    .fresh

/-- The same day after a repair that lets no energy in. -/
def morningRested : DeviceState :=
  DeviceOperation.perform morningCharged (.repair 80000 3000 600 3000)

theorem reachable_morningCharged : Reachable (fun _ => True) morningCharged :=
  Reachable.fresh.foldl _ fun _ _ => trivial

theorem reachable_morningRested : Reachable (fun _ => True) morningRested :=
  reachable_morningCharged.step trivial

/-- Both mornings have the same breakpoints and differ in the power of the first three hours. -/
theorem morning_sameButPast :
    SameButPast 0 97200 ⟨0, 0, true, 86400, 86400, .ofList [(0, 20), (10800, 0), (86400, 0)]⟩
      (.ofList [(0, 0), (10800, 0), (86400, 0)]) morningCharged morningRested := by
  have hline : morningRested.scheduledPower = morningCharged.scheduledPower.insert 86400 0 := by
    decide +kernel
  have hprofile : (.ofList [(0, 0), (10800, 0), (86400, 0)] : PowerProfile)
      = OrderedMap.insert (.ofList [(0, 20), (10800, 0), (86400, 0)]) 0 0 := by decide
  refine ⟨by decide +kernel, by decide +kernel, by decide +kernel, by decide +kernel,
    by decide +kernel, by decide +kernel, ?_, ?_, ?_, ⟨86400, by decide +kernel, by decide⟩,
    ⟨86400, by decide +kernel, by decide⟩⟩
  · rw [hprofile]
    exact SameFrom.of_entries (k := 10800) (by decide) (by decide) fun j hj =>
      OrderedMap.get?_insert_of_ne (by omega)
  · rw [hline]
    exact SameFrom.of_entries (k := 97200) (by decide +kernel) (Int.le_refl _) fun j hj =>
      OrderedMap.get?_insert_of_ne (by omega)
  · intro j hj
    rw [hline, OrderedMap.get?_insert_of_ne]
    rintro rfl
    exact absurd hj (by decide)

/-- A device that is asked for its schedule three hours into the day. -/
def askedAtThree (s : DeviceState) : DeviceState :=
  DeviceOperation.perform s (.getSchedule ⟨1⟩ 97200 97210 97200 3000 Zone.utc smallBattery)

theorem getSchedule_morningCharged :
    morningCharged.getSchedule ⟨1⟩ 97200 97210 97200 3000 Zone.utc smallBattery
      = .ok (⟨⟨1⟩, 97200, 97210, [0], [0], []⟩, morningCharged.askedAtThree) := rfl

theorem getSchedule_morningRested :
    morningRested.getSchedule ⟨1⟩ 97200 97210 97200 3000 Zone.utc smallBattery
      = .ok (⟨⟨1⟩, 97200, 97210, [0], [0], []⟩, morningRested.askedAtThree) := rfl

/-- An hour at 500 W from then on. -/
def hourAtThree : PowerProfile := .ofList [(10800, 500), (14400, 0)]

/-- Both devices are asked to charge for an hour. Only the one that has rested takes it, and this is
    what decides. -/
theorem adapt_answers_differ_morning :
    ∃ f, morningCharged.askedAtThree.flexibilities.get? 0 = some f ∧
      ¬ (f.RestsUntil 10800 (.ofList [(0, 20), (10800, 0), (86400, 0)]) ↔
        f.RestsUntil 10800 (.ofList [(0, 0), (10800, 0), (86400, 0)])) := by
  have hroom : morningCharged.askedAtThree.HasRoom := by
    rw [HasRoom]
    decide +kernel
  obtain ⟨f, s', hget', -, hf, hanswers⟩ := adapt_answers_differ_iff reachable_morningCharged
    reachable_morningRested morning_sameButPast getSchedule_morningCharged
    (List.mem_singleton.2 rfl) hroom
  rw [getSchedule_morningRested] at hget'
  cases hget'
  have hkeys : ∀ j ∈ hourAtThree.keys, 97200 - 86400 ≤ j ∧ j ≤ (86400 : Int) := by decide
  exact ⟨f, hf, ((hanswers hourAtThree hkeys).1 (by decide +kernel)).2⟩

/-- Two devices that differ in nothing but the power of a started task before now answer a
    correction of what lies ahead differently. -/
theorem charged_morning_refused :
    ∃ s s' s₁ s₁' : DeviceState, ∃ k now stored t power c summary, ∃ update : PowerProfile,
      Reachable (fun _ => True) s ∧ Reachable (fun _ => True) s' ∧
      SameButPast k now t power s s' ∧
      s.getSchedule ⟨1⟩ 97200 97210 now stored Zone.utc c = .ok (summary, s₁) ∧
      s'.getSchedule ⟨1⟩ 97200 97210 now stored Zone.utc c = .ok (summary, s₁') ∧
      k ∈ summary.taskIds ∧
      (∀ j ∈ update.keys, now - t.startingTime ≤ j ∧ j ≤ t.runningTime) ∧
      (s₁.adapt k update).1 = .invalidData ∧ (s₁'.adapt k update).1 = .ok :=
  ⟨morningCharged, morningRested, morningCharged.askedAtThree, morningRested.askedAtThree, 0, 97200,
    3000, _, _, smallBattery, _, hourAtThree, reachable_morningCharged, reachable_morningRested,
    morning_sameButPast, getSchedule_morningCharged, getSchedule_morningRested,
    List.mem_singleton.2 rfl, by decide, by decide +kernel, by decide +kernel⟩

end DeviceState
end SiteDispatch
