/-
  SiteDispatch.Proofs.Scheduler.Frame

  What planning a window does to the time before it.

  A device that has answered a request expects what is planned from its answer, and it goes on
  expecting the rest of the plan while that is committed task by task. So the timeline changes by
  one window after the other, and before the planned time a window brings nothing but rest.
-/

import SiteDispatch.Proofs.Device.Planned
import SiteDispatch.Proofs.Scheduler.Commitment

namespace SiteDispatch

/-! ## Answered plans -/

namespace DeviceState

section Answers

variable {s s' : DeviceState} {device : DeviceId} {start stop now stored k : Int} {zone : Zone}
  {c : DeviceConfig} {data : ScheduleData} {w : PlanningWindow} {f : Flexibility} {t : Task}

/-- What a device has listed it offers for planning as it has it: none of it is free. -/
theorem task_of_answers (h : s'.Holds SettledPair)
    (hanswers : s.Answers device start stop now stored zone c data s')
    (hpair : (data.plannable w).get? k = some (f, t)) :
    t ∈ data.tasks ∧ s'.tasks.get? t.flexibilityId = some t := by
  obtain ⟨summary, -, htasks, hflex⟩ := hanswers
  obtain ⟨-, hknown, -, horigin⟩ := offers_of_get?_plannable hpair
  rcases horigin with ⟨htask, -⟩ | ⟨hfree, -, -⟩
  · refine ⟨htask, ?_⟩
    rw [htasks, List.mem_filterMap] at htask
    obtain ⟨j, -, hj⟩ := htask
    obtain ⟨g, -, hsettled⟩ := h.paired.of_task hj
    rw [hsettled.named, hj]
  · rw [hflex, List.mem_filterMap] at hknown
    obtain ⟨j, -, hj⟩ := hknown
    obtain ⟨u, -, hsettled⟩ := h.paired.of_flexibility hj
    rw [hsettled.toLinked.not_free] at hfree
    cases hfree

/-- The device expects what is planned from its answer. -/
theorem expects_of_answers (h : s'.Holds SettledPair)
    (hanswers : s.Answers device start stop now stored zone c data s')
    (hreach : ∀ t ∈ data.tasks, start - t.startingTime ≤ Quantity.greatest)
    (hstart : w.start = start) (hgrid : 1 ≤ w.slotLength)
    (hpair : (data.plannable w).get? k = some (f, t)) (goals : List (Option Int))
    (ledger : List Int) : s'.Expects start (planTask w goals f t ledger).1 := by
  obtain ⟨hlisted, htask⟩ := task_of_answers h hanswers hpair
  have hentry : w.entry t ≤ Quantity.greatest := by
    have := hreach t hlisted
    have : 0 ≤ Quantity.greatest := by decide
    rw [PlanningWindow.entry, hstart]
    omega
  refine ⟨⟨t, htask, rfl, rfl⟩, fun hlasts hshort => ?_⟩
  rw [← hstart]
  exact planTask_plannedFrom hgrid ⟨hentry, hshort⟩ goals f ledger hlasts

end Answers

end DeviceState

/-! ## Commitments -/

/-- The device took the task. -/
def Commitment.TakenBy (c : Commitment) (id : DeviceId) : Prop :=
  c.device = id ∧ c.answer = .ok .ok

/-- Start and end of the task if the device took it. -/
def Commitment.window? (c : Commitment) (id : DeviceId) : Option (Int × Int) :=
  match c.answer with
  | .ok .ok => if c.device = id then some (c.task.startingTime, c.task.stop) else none
  | _ => none

theorem Commitment.window?_eq_some_iff {c : Commitment} {id : DeviceId} {window : Int × Int} :
    c.window? id = some window ↔ c.TakenBy id ∧ (c.task.startingTime, c.task.stop) = window := by
  obtain ⟨device, task, answer⟩ := c
  rw [window?, TakenBy]
  rcases answer with error | result
  · simp
  · cases result <;> simp

theorem Commitment.window?_eq_none {c : Commitment} {id : DeviceId} (h : ¬ c.TakenBy id) :
    c.window? id = none :=
  Option.eq_none_iff_forall_ne_some.2 fun _ hwindow => h (window?_eq_some_iff.1 hwindow).1

/-- A device after it was told to do something: it still expects the plans that it expected, and
    `windows` have been planned on its timeline. -/
structure StorageDevice.Follows (d d' : StorageDevice) (first : Int) (windows : List (Int × Int)) :
    Prop where
  holds : d'.store.state.Holds DeviceState.SettledPair
  expects : ∀ planned, d.store.state.Expects first planned → d'.store.state.Expects first planned
  line : PowerTimeline.PlannedAll first windows d.store.state.scheduledPower
    d'.store.state.scheduledPower

namespace StorageDevice.Follows

variable {d d' d'' : StorageDevice} {first : Int} {windows others : List (Int × Int)}

theorem refl (hholds : d.store.state.Holds DeviceState.SettledPair) : d.Follows d first [] :=
  ⟨hholds, fun _ hexpects => hexpects, .nil⟩

theorem trans (h : d.Follows d' first windows) (h' : d'.Follows d'' first others) :
    d.Follows d'' first (windows ++ others) :=
  ⟨h'.holds, fun planned hexpects => h'.expects planned (h.expects planned hexpects),
    h.line.append h'.line⟩

/-- A request to commit `planned` that has been settled. -/
theorem settle {planned : Task} {outcome : SchedulingResult × DeviceState} {id : DeviceId}
    (hholds : outcome.2.Holds DeviceState.SettledPair)
    (hsettles : d.store.state.Settles first planned outcome) :
    d.Follows { d with store := (d.store.settle outcome).2 } first
      (Commitment.window? ⟨id, planned, .ok outcome.1⟩ id).toList := by
  obtain ⟨answer, s'⟩ := outcome
  cases hsettles with
  | refused hanswer hsame =>
      dsimp only at hanswer hsame
      subst hsame
      have hnone : Commitment.window? ⟨id, planned, .ok answer⟩ id = none :=
        Commitment.window?_eq_none fun htaken => hanswer (Except.ok.inj htaken.2)
      have hstore : (d.store.settle (answer, d.store.state)).2 = d.store := by
        simp [DeviceStore.settle, SchedulingResult.isOk, hanswer]
      rw [hnone, hstore]
      exact refl hholds
  | taken hanswer hkept hline =>
      dsimp only at hanswer hkept hline
      subst hanswer
      have hwindow : Commitment.window? ⟨id, planned, .ok .ok⟩ id
          = some (planned.startingTime, planned.stop) :=
        Commitment.window?_eq_some_iff.2 ⟨⟨rfl, rfl⟩, rfl⟩
      rw [hwindow]
      exact ⟨hholds, fun other hother => hother.of_keepsTasks hkept, .cons hline .nil⟩

end StorageDevice.Follows

namespace StorageDevices

section Commit

variable {devices : StorageDevices} {id device : DeviceId} {d : StorageDevice} {planned : Task}
  {now first : Int} {call : DeviceCall StorageDevices SchedulingResult}

/-- A call that commits a task changes the device that it is for at most, by a request to its
    store. -/
theorem commitCall?_spec (hcall : (transport now).commitCall? device planned now = some call)
    (devices : StorageDevices) :
    ∃ answer devices', call devices = .ok (.immediate answer, devices') ∧
      (∀ id, id ≠ device → devices'.get? id = devices.get? id) ∧
      ∀ d, devices.get? device = some d → ∃ outcome,
        (outcome = d.store.state.schedule planned.flexibilityId planned.startingTime
            planned.power now ∨
          outcome = d.store.state.adapt planned.flexibilityId planned.power) ∧
        answer = .ok outcome.1 ∧
        devices'.get? device = some { d with store := (d.store.settle outcome).2 } := by
  have hsettle : ∀ (s : DeviceStore) (change : SchedulingResult × DeviceState),
      (s.settle change).1 = change.1 := fun s change => by
    rw [DeviceStore.settle]
    split <;> rfl
  rw [Transport.commitCall?] at hcall
  cases hd : devices.get? device with
  | none =>
      refine ⟨.error (.unknownDevice device), devices, ?_, fun _ _ => rfl, fun d hd => by cases hd⟩
      split_ifs at hcall <;> cases hcall <;> simp only [transport, ask, hd]
  | some d =>
      obtain ⟨outcome, houtcome, hreply⟩ : ∃ outcome,
          (outcome = d.store.state.schedule planned.flexibilityId planned.startingTime
              planned.power now ∨
            outcome = d.store.state.adapt planned.flexibilityId planned.power) ∧
          call devices = .ok (.immediate (.ok outcome.1),
            devices.insert device { d with store := (d.store.settle outcome).2 }) := by
        split_ifs at hcall <;> cases hcall
        · refine ⟨_, .inl rfl, ?_⟩
          simp only [transport, ask, hd, StorageDevice.schedule, DeviceStore.schedule, hsettle]
        · refine ⟨_, .inr rfl, ?_⟩
          simp only [transport, ask, hd, StorageDevice.adapt, DeviceStore.adapt, hsettle]
      refine ⟨_, _, hreply, fun id hid => OrderedMap.get?_insert_of_ne hid, fun d' hd' => ?_⟩
      cases hd'
      exact ⟨outcome, houtcome, rfl, OrderedMap.get?_insert_self _ _ _⟩

/-- One task: a device expects its own, and those of other devices leave it alone. -/
theorem commitCall?_follows
    (hcall : (transport now).commitCall? device planned now = some call)
    (hd : devices.get? id = some d) (hholds : d.store.state.Holds DeviceState.SettledPair)
    (hexpects : device = id → d.store.state.Expects first planned) :
    ∃ answer devices' d', call devices = .ok (.immediate answer, devices') ∧
      devices'.get? id = some d' ∧
      d.Follows d' first (Commitment.window? ⟨device, planned, answer⟩ id).toList := by
  obtain ⟨answer, devices', hreply, hothers, hown⟩ := commitCall?_spec hcall devices
  by_cases hid : device = id
  · subst hid
    obtain ⟨outcome, houtcome, rfl, hd'⟩ := hown d hd
    refine ⟨_, devices', _, hreply, hd', ?_⟩
    rcases houtcome with rfl | rfl
    · exact .settle (hholds.schedule DeviceState.settledInvariant trivial)
        ((hexpects rfl).schedule hholds now)
    · exact .settle (hholds.adapt DeviceState.settledInvariant _ _)
        ((hexpects rfl).adapt hholds)
  · have hnone : Commitment.window? ⟨device, planned, answer⟩ id = none :=
      Commitment.window?_eq_none fun htaken => hid htaken.1
    refine ⟨answer, devices', d, hreply, (hothers id (Ne.symm hid)).trans hd, ?_⟩
    rw [hnone]
    exact .refl hholds

/-- A plan is committed task by task, and a device goes on expecting the rest of it. -/
theorem commitTasks_follows (id : DeviceId) (first now : Int) (schedules : Schedules) :
    ∀ (plan : List (DeviceId × Task)) (adapter : Adapter) (devices : StorageDevices)
      (d : StorageDevice), devices.get? id = some d →
      d.store.state.Holds DeviceState.SettledPair →
      (∀ planned, (id, planned) ∈ plan → d.store.state.Expects first planned) →
      ∃ commitments adapter' devices' d',
        commitTasks (transport now) schedules now plan adapter devices
          = .ok (commitments, adapter', devices') ∧
        devices'.get? id = some d' ∧ d.Follows d' first (commitments.filterMap (·.window? id))
  | [], adapter, devices, d, hd, hholds, _ => ⟨[], adapter, devices, d, rfl, hd, .refl hholds⟩
  | (device, planned) :: rest, adapter, devices, d, hd, hholds, hplan => by
      rw [commitTasks]
      cases hcall : (transport now).commitCall? device planned now with
      | none =>
          -- A task that can no longer be committed is passed over.
          exact commitTasks_follows id first now schedules rest adapter devices d hd hholds
            fun later hlater => hplan later (List.mem_cons_of_mem _ hlater)
      | some call =>
          have hexpects : device = id → d.store.state.Expects first planned := by
            rintro rfl
            exact hplan planned (List.mem_cons_self ..)
          obtain ⟨answer, devices₁, d₁, hreply, hd₁, hfollows⟩ :=
            commitCall?_follows hcall hd hholds hexpects
          obtain ⟨others, adapter', devices', d', hrest, hd', hfollows'⟩ :=
            commitTasks_follows id first now schedules rest
              (adapter.note schedules ⟨device, planned, answer⟩ now) devices₁ d₁ hd₁ hfollows.holds
              fun later hlater => hfollows.expects later
                (hplan later (List.mem_cons_of_mem _ hlater))
          refine ⟨⟨device, planned, answer⟩ :: others, adapter', devices', d', ?_, hd', ?_⟩
          · exact bind_eq_ok_iff.2 ⟨_, hreply, bind_eq_ok_iff.2 ⟨_, hrest, rfl⟩⟩
          · have hall := hfollows.trans hfollows'
            rw [List.filterMap_cons]
            cases hwindow : Commitment.window? ⟨device, planned, answer⟩ id with
            | none =>
                rw [hwindow] at hall
                exact hall
            | some window =>
                rw [hwindow] at hall
                exact hall

end Commit

/-! ## Before the window -/

section Window

variable {devices : StorageDevices} {schedules : Schedules} {id : DeviceId} {d : StorageDevice}
  {s : DeviceState} {device : DeviceId} {start stop now stored : Int} {zone : Zone}
  {c : DeviceConfig} {data : ScheduleData} {w : PlanningWindow} {goals : List (Option Int)}
  {ledger left : List Int} {plan : TaskPlan}

/-- What the allocation plans for a device goes back to what the device has listed. -/
theorem expects_of_allocate
    (hholds : d.store.state.Holds DeviceState.SettledPair)
    (hanswers : s.Answers device start stop now stored zone c data d.store.state)
    (hdata : schedules.get? id = some data)
    (hreach : ∀ t ∈ data.tasks, start - t.startingTime ≤ Quantity.greatest)
    (hstart : w.start = start) (hgrid : 1 ≤ w.slotLength)
    (hplan : allocate w goals ledger schedules = .ok (plan, left)) {planned : Task}
    (hmem : (id, planned) ∈ plan.toList) : d.store.state.Expects start planned := by
  rw [allocate_eq_ok hgrid] at hplan
  cases hplan
  obtain ⟨data', f, t, ledger', hdata', hpair, rfl⟩ := TaskPlan.exists_offer_of_mem hmem
  rw [hdata, Option.some.injEq] at hdata'
  subst hdata'
  exact DeviceState.expects_of_answers hholds hanswers hreach hstart hgrid hpair goals ledger'

/-- Planning a window from `start` on and committing the plan brings nothing but rest before it:
    at `time` the device rests if a task that it took, or a day that was added for the window, has
    begun by then and nothing had been set since its end, and otherwise its power is what it was.
    This is so on devices that were asked about any days before, if no listed task has begun
    longer ago than a profile can tell. -/
theorem power_before_window (hs : DeviceState.Reachable (fun _ => True) s)
    (hanswers : s.Answers device start stop now stored zone c data d.store.state)
    (hd : devices.get? id = some d) (hdata : schedules.get? id = some data)
    (hreach : ∀ t ∈ data.tasks, start - t.startingTime ≤ Quantity.greatest)
    (hstart : w.start = start) (hgrid : 1 ≤ w.slotLength)
    (hplan : allocate w goals ledger schedules = .ok (plan, left)) (adapter : Adapter) :
    ∃ commitments adapter' devices' d',
      commitTasks (transport now) schedules now plan.toList adapter devices
        = .ok (commitments, adapter', devices') ∧
      devices'.get? id = some d' ∧
      ∀ time < start,
        ((∃ p ∈ commitments, p.TakenBy id ∧
              s.scheduledPower.InForce p.task.startingTime p.task.stop time) ∨
            (∃ day ∈ d.store.state.scheduledPower.keys, day ∉ s.scheduledPower.keys ∧
              s.scheduledPower.InForce day day time) →
          d'.store.state.powerAt time = 0) ∧
        ((∀ p ∈ commitments, p.TakenBy id →
              ¬ s.scheduledPower.InForce p.task.startingTime p.task.stop time) →
            (∀ day ∈ d.store.state.scheduledPower.keys, day ∉ s.scheduledPower.keys →
              ¬ s.scheduledPower.InForce day day time) →
          d'.store.state.powerAt time = s.powerAt time) := by
  have hholds := hs.holds DeviceState.settledInvariant
  obtain ⟨summary, hget, hlisted⟩ := hanswers
  have hholds' := hholds.getSchedule DeviceState.settledInvariant trivial hget
  obtain ⟨days, hkeys, hdays⟩ :=
    DeviceState.plannedAll_getSchedule DeviceState.settledInvariant hholds trivial hget start
  obtain ⟨commitments, adapter', devices', d', hcommit, hd', hfollows⟩ :=
    commitTasks_follows id start now schedules plan.toList adapter devices d hd hholds'
      fun planned hmem =>
        expects_of_allocate hholds' ⟨summary, hget, hlisted⟩ hdata hreach hstart hgrid hplan hmem
  -- First the new days, then the tasks that were taken.
  have hline := hdays.append hfollows.line
  refine ⟨commitments, adapter', devices', d', hcommit, hd', fun time htime =>
    ⟨?_, fun htasks hnew => hline.powerAt_of_not_inForce fun window hwindow => ?_⟩⟩
  · rintro (⟨p, hp, htaken, hforce⟩ | ⟨day, hday, hnew, hforce⟩)
    · have hwindow : (p.task.startingTime, p.task.stop) ∈ commitments.filterMap (·.window? id) :=
        List.mem_filterMap.2 ⟨p, hp, Commitment.window?_eq_some_iff.2 ⟨htaken, rfl⟩⟩
      exact hline.powerAt_eq_zero htime (List.mem_append_right _ hwindow) hforce.1
        hforce.restsSince
    · have hwindow : (day, day) ∈ days.map fun day => (day, day) :=
        List.mem_map.2 ⟨day, ((hkeys day).1 hday).resolve_right hnew, rfl⟩
      exact hline.powerAt_eq_zero htime (List.mem_append_left _ hwindow) hforce.1
        hforce.restsSince
  · rcases List.mem_append.1 hwindow with hday | htask
    · obtain ⟨day, hmem, rfl⟩ := List.mem_map.1 hday
      by_cases hold : day ∈ s.scheduledPower.keys
      · -- A day that was there before has a setpoint of its own.
        exact fun hforce => hforce.2 ⟨day, hold, Int.le_refl day, hforce.1⟩
      · exact hnew day ((hkeys day).2 (.inl hmem)) hold
    · obtain ⟨p, hp, hwindow⟩ := List.mem_filterMap.1 htask
      obtain ⟨htaken, rfl⟩ := Commitment.window?_eq_some_iff.1 hwindow
      exact htasks p hp htaken

end Window

end StorageDevices

/-- 300 W are delivered up to midnight and 500 W for two hours from then on. -/
def acrossMidnight : DeviceState :=
  List.foldl DeviceOperation.perform .fresh
    [.getSchedule ⟨1⟩ 80000 90000 0 3000 Zone.utc DeviceState.smallBattery,
     .adapt 0 (.ofList [(79200, 300), (86400, 0)]),
     .adapt 1 (.ofList [(0, 500), (7200, 0)])]

/-- The battery of 6 kWh, asked at 1:00 about the time from 1:15 on. -/
def runningBattery : StorageDevice where
  store :=
    { config := DeviceState.smallBattery
      zone := Zone.utc
      state := DeviceOperation.perform acrossMidnight
        (.getSchedule ⟨1⟩ 90900 93600 90000 2500 Zone.utc DeviceState.smallBattery)
      file := ⟨0, 0, none, none⟩
      writable := true }
  battery := ⟨50, 0, ⟨6000, 2000, 2000⟩⟩
  fault := none

/-- What it answered. -/
def quarterPastOne : ScheduleData where
  device := ⟨1⟩
  start := 90900
  stop := 93600
  tasks := [1].filterMap runningBattery.store.state.tasks.get?
  flexibilities := [1].filterMap runningBattery.store.state.flexibilities.get?
  constraints := []

/-- The task that covers a demand of 400 W from 1:15 to 2:00. -/
def restThenDemand : Task :=
  ⟨1, 1, true, 86400, 86400, .ofList [(0, 0), (4500, 400), (7200, 0), (86400, 0)]⟩

namespace StorageDevices

theorem power_before_window_midnight :
    ∃ commitments adapter' devices' d',
      commitTasks (transport 90000) (OrderedMap.singleton ⟨1⟩ quarterPastOne) 90000
        (TaskPlan.toList (OrderedMap.singleton ⟨1⟩ [restThenDemand])) ⟨.empty, .empty 900 300⟩
        (OrderedMap.singleton ⟨1⟩ runningBattery) = .ok (commitments, adapter', devices') ∧
      devices'.get? ⟨1⟩ = some d' ∧
      d'.store.state.powerAt 80000 = 300 ∧ d'.store.state.powerAt 90000 = 0 := by
  have hplan : allocate ⟨90900, 90900, 93600, 900, 90900, 0⟩ [some 0, some 0, some 0]
      [-100, -100, -100] (OrderedMap.singleton ⟨1⟩ quarterPastOne)
      = .ok (OrderedMap.singleton ⟨1⟩ [restThenDemand], [0, 0, 0]) := by cbv
  have hreachable : DeviceState.Reachable (fun _ => True) acrossMidnight :=
    .foldl .fresh _ fun _ _ => trivial
  have hanswers : acrossMidnight.Answers ⟨1⟩ 90900 93600 90000 2500 Zone.utc
      DeviceState.smallBattery quarterPastOne runningBattery.store.state :=
    ⟨⟨⟨1⟩, 90900, 93600, [1], [1], []⟩, rfl, rfl, rfl⟩
  have hd : OrderedMap.get? (OrderedMap.singleton (⟨1⟩ : DeviceId) runningBattery) ⟨1⟩
      = some runningBattery := rfl
  have hdata : OrderedMap.get? (OrderedMap.singleton (⟨1⟩ : DeviceId) quarterPastOne) ⟨1⟩
      = some quarterPastOne := rfl
  obtain ⟨commitments, adapter', devices', d', hcommit, hd', hbefore⟩ :=
    power_before_window hreachable hanswers hd hdata (by decide +kernel) rfl (by decide)
      hplan ⟨.empty, .empty 900 300⟩
  have htaken : commitments = [⟨⟨1⟩, restThenDemand, .ok .ok⟩] := by
    cases hcommit
    rfl
  subst htaken
  refine ⟨_, _, _, _, hcommit, hd', ?_, ?_⟩
  · -- The planned task begins later, and no day has been added.
    refine ((hbefore 80000 (by decide)).2 (fun p hp _ hforce => ?_)
      fun day hday hnew => absurd hday hnew).trans (by decide +kernel)
    rw [List.mem_singleton.1 hp] at hforce
    exact absurd hforce.1 (by decide)
  · refine (hbefore 90000 (by decide)).1 (.inl ⟨_, List.mem_singleton.2 rfl, ⟨rfl, rfl⟩,
      by decide, ?_⟩)
    rintro ⟨j, -, hstop, htime⟩
    exact absurd (hstop.trans htime) (by decide)

/-- The power before a window is not left alone: at 1:00 the battery delivers 500 W and would do so
    until 2:00. After a plan for the time from 1:15 on it rests up to then. -/
theorem power_lost_before_window :
    ∃ left commitments adapter' devices' d',
      DeviceState.Reachable (fun _ => True) acrossMidnight ∧
      acrossMidnight.Answers ⟨1⟩ 90900 93600 90000 2500 Zone.utc DeviceState.smallBattery
        quarterPastOne runningBattery.store.state ∧
      allocate ⟨90900, 90900, 93600, 900, 90900, 0⟩ [some 0, some 0, some 0] [-100, -100, -100]
        (OrderedMap.singleton ⟨1⟩ quarterPastOne)
        = .ok (OrderedMap.singleton ⟨1⟩ [restThenDemand], left) ∧
      commitTasks (transport 90000) (OrderedMap.singleton ⟨1⟩ quarterPastOne) 90000
        (TaskPlan.toList (OrderedMap.singleton ⟨1⟩ [restThenDemand])) ⟨.empty, .empty 900 300⟩
        (OrderedMap.singleton ⟨1⟩ runningBattery) = .ok (commitments, adapter', devices') ∧
      devices'.get? ⟨1⟩ = some d' ∧
      ∃ time, 90000 ≤ time ∧ time < 90900 ∧
        d'.store.state.powerAt time ≠ acrossMidnight.powerAt time := by
  have hplan : allocate ⟨90900, 90900, 93600, 900, 90900, 0⟩ [some 0, some 0, some 0]
      [-100, -100, -100] (OrderedMap.singleton ⟨1⟩ quarterPastOne)
      = .ok (OrderedMap.singleton ⟨1⟩ [restThenDemand], [0, 0, 0]) := by cbv
  exact ⟨_, _, _, _, _, .foldl .fresh _ fun _ _ => trivial,
    ⟨⟨⟨1⟩, 90900, 93600, [1], [1], []⟩, rfl, rfl, rfl⟩, hplan, rfl, rfl,
    90000, by decide, by decide, by decide +kernel⟩

end StorageDevices

end SiteDispatch
