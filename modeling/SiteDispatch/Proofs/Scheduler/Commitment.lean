/-
  SiteDispatch.Proofs.Scheduler.Commitment

  A plan made from fresh schedules is taken as a whole.

  What a device lists can be planned, and what is planned for it the device awaits.
  Committing one task leaves the others awaited, on the same device and on the rest,
  so a plan is taken task by task whatever its order.
-/

import Mathlib
import SiteDispatch.Proofs.Device.Listing
import SiteDispatch.Proofs.Planning.Delivery
import SiteDispatch.Proofs.Transport.Local
import SiteDispatch.Scheduler.Commitment

namespace SiteDispatch

/-! ## Devices that have answered -/

/-- The device has just answered a request made at `now` with `data`: it has been asked about
    ordinary days only, this time included, had no charge target to reach, and its power is
    moderate. -/
def StorageDevice.HasAnswered (d : StorageDevice) (start stop now : Int)
    (data : ScheduleData) : Prop :=
  ∃ (s : DeviceState) (device : DeviceId) (stored : Int) (zone : Zone) (c : DeviceConfig),
    DeviceState.Reachable DeviceOperation.Ordinary s ∧ s.socTargetActive now = false ∧
    (zone.OrdinaryDay start ∧ zone.OrdinaryDay stop) ∧ c.Moderate ∧
    s.Answers device start stop now stored zone c data d.store.state

theorem StorageDevice.HasAnswered.fresh {d : StorageDevice} {start stop now : Int}
    {data : ScheduleData} (h : d.HasAnswered start stop now data) :
    d.store.state.Fresh now start data := by
  obtain ⟨s, device, stored, zone, c, hreachable, hquiet, hdays, hc, hanswers⟩ := h
  exact DeviceState.fresh_of_answers hdays hc (hreachable.holds DeviceState.ordinaryInvariant)
    hquiet hanswers

/-- A device that can be asked at `now` about a window from `start` to `stop`: these and all
    that it has been asked about are ordinary days, it has no charge target to reach, and its
    power is moderate. -/
structure StorageDevice.Ready (d : StorageDevice) (start stop now : Int) : Prop where
  reachable : DeviceState.Reachable DeviceOperation.Ordinary d.store.state
  quiet : d.store.state.socTargetActive now = false
  days : d.store.zone.OrdinaryDay start ∧ d.store.zone.OrdinaryDay stop
  config : d.store.config.Moderate

/-- A ready device that answers is ready to be asked again. -/
theorem StorageDevice.Ready.lists {d d' : StorageDevice} {start stop now : Int}
    {data : ScheduleData} (h : d.Ready start stop now) (hlists : d.Lists start stop now data d') :
    d'.Ready start stop now ∧ d'.HasAnswered start stop now data := by
  obtain ⟨summary, hget, htasks, hflex⟩ := hlists
  obtain ⟨⟨summary, store⟩, hstore, heq⟩ := bind_eq_ok_iff.1 hget
  cases heq
  obtain ⟨⟨soc, stored⟩, -, hstore⟩ := bind_eq_ok_iff.1 hstore
  obtain ⟨⟨summary, state⟩, hstate, heq⟩ := bind_eq_ok_iff.1 hstore
  cases heq
  have hholds := h.reachable.holds DeviceState.ordinaryInvariant
  -- The request is one more step of the same kind.
  have hreachable : DeviceState.Reachable DeviceOperation.Ordinary state := by
    have hstep : DeviceState.Reachable DeviceOperation.Ordinary
        (DeviceOperation.perform d.store.state (.getSchedule d.store.config.device start stop now
          stored d.store.zone d.store.config)) := h.reachable.step h.days
    rw [DeviceOperation.perform, hstate] at hstep
    exact hstep
  have hquiet : state.socTargetActive now = false := by
    rw [DeviceState.socTargetActive_of_getSchedule h.days hholds hstate, h.quiet]
  refine ⟨⟨hreachable, hquiet, h.days, h.config⟩, d.store.state, _, stored, _, _, h.reachable,
    h.quiet, h.days, h.config, summary, hstate, htasks, hflex⟩

namespace StorageDevices

/-- The device that a planned task is meant for awaits it and can correct it. -/
def Awaits (devices : StorageDevices) (e : DeviceId × Task) : Prop :=
  ∃ d, devices.get? e.1 = some d ∧ d.store.state.Holds DeviceState.OrdinaryPair ∧
    d.store.state.Awaits e.2 ∧ e.2.adaptable = true

section Commit

variable {devices : StorageDevices} {id : DeviceId} {d d' : StorageDevice} {planned : Task}
  {e : DeviceId × Task}

/-- A device in another state in which it awaits what it did before. -/
theorem Awaits.insert (h : devices.Awaits e) (hd : devices.get? id = some d)
    (hholds : d'.store.state.Holds DeviceState.OrdinaryPair)
    (hawaits : ∀ task, d.store.state.Awaits task → d'.store.state.Awaits task) :
    StorageDevices.Awaits (devices.insert id d') e := by
  obtain ⟨d₁, hd₁, hholds₁, hawaits₁, hadaptable⟩ := h
  by_cases hid : e.1 = id
  · rw [hid, hd, Option.some.injEq] at hd₁
    subst hd₁
    refine ⟨d', ?_, hholds, hawaits _ hawaits₁, hadaptable⟩
    rw [hid, OrderedMap.get?_insert_self]
  · refine ⟨d₁, ?_, hholds₁, hawaits₁, hadaptable⟩
    rw [OrderedMap.get?_insert_of_ne hid, hd₁]

/-- An awaited task is taken, and every other awaited one still is awaited. -/
theorem commitCall?_taken (now : Int) (h : devices.Awaits (id, planned)) :
    ∃ call devices', (transport now).commitCall? id planned now = some call ∧
      call devices = .ok (.immediate (.ok .ok), devices') ∧
      ∀ e, devices.Awaits e → devices'.Awaits e := by
  obtain ⟨d, hd, hholds, hawaits, hadaptable⟩ := h
  dsimp only at hd hawaits hadaptable
  rw [Transport.commitCall?]
  -- What begins later is scheduled, everything else is corrected as a whole.
  by_cases hfuture : now + 1 < planned.startingTime
  · have hlater : now < planned.startingTime := by omega
    obtain ⟨s', hs', hholds', hothers⟩ := hawaits.schedule hholds hlater
    rw [if_pos hfuture]
    have hkept : ∀ e, devices.Awaits e →
        StorageDevices.Awaits (devices.insert id { d with store := d.store.save s' }) e :=
      fun e he => he.insert hd hholds' hothers
    refine ⟨_, _, rfl, ?_, hkept⟩
    simp only [transport, ask, hd, StorageDevice.schedule, DeviceStore.schedule, hs',
      DeviceStore.settle, SchedulingResult.isOk]
    rfl
  · obtain ⟨s', hs', hholds', hothers⟩ := hawaits.adapt hholds
    rw [if_neg hfuture, if_pos hadaptable]
    have hkept : ∀ e, devices.Awaits e →
        StorageDevices.Awaits (devices.insert id { d with store := d.store.save s' }) e :=
      fun e he => he.insert hd hholds' hothers
    refine ⟨_, _, rfl, ?_, hkept⟩
    simp only [transport, ask, hd, StorageDevice.adapt, DeviceStore.adapt, hs',
      DeviceStore.settle, SchedulingResult.isOk]
    rfl

/-- Awaited tasks are taken one after the other. -/
theorem commitTasks_taken (now : Int) (schedules : Schedules) :
    ∀ (plan : List (DeviceId × Task)) (adapter : Adapter) (devices : StorageDevices),
      (∀ e ∈ plan, devices.Awaits e) →
      ∃ commitments adapter' devices',
        commitTasks (transport now) schedules now plan adapter devices
          = .ok (commitments, adapter', devices') ∧
        commitments.map (fun c => (c.device, c.task)) = plan ∧
        ∀ c ∈ commitments, c.answer = .ok .ok
  | [], adapter, devices, _ => ⟨[], adapter, devices, rfl, rfl, by simp⟩
  | (id, planned) :: rest, adapter, devices, hplan => by
      -- The first task is taken, and the rest of the plan is awaited as before.
      obtain ⟨call, devices₁, hcall, hreply, hkept⟩ :=
        commitCall?_taken now (hplan (id, planned) (by simp))
      obtain ⟨others, adapter', devices', hrest, hmap, hok⟩ :=
        commitTasks_taken now schedules rest
          (adapter.note schedules ⟨id, planned, .ok .ok⟩ now) devices₁
          fun e he => hkept e (hplan e (List.mem_cons_of_mem _ he))
      refine ⟨⟨id, planned, .ok .ok⟩ :: others, adapter', devices', ?_, ?_, ?_⟩
      · rw [commitTasks, hcall]
        exact bind_eq_ok_iff.2 ⟨_, hreply, bind_eq_ok_iff.2 ⟨_, hrest, rfl⟩⟩
      · rw [List.map_cons, hmap]
      · intro c hc
        rcases List.mem_cons.1 hc with rfl | hc
        · rfl
        · exact hok c hc

end Commit

end StorageDevices

/-! ## Plans -/

/-- A plan that one of the two optimisations makes from `schedules` for a window. -/
inductive Schedules.Plans (schedules : Schedules) (start stop : Int) : TaskPlan → Prop
  | selfConsumption {p : SelfConsumptionProblem} {timestamp : Int}
      {solution : SelfConsumptionSolution} (hschedules : p.schedules = schedules)
      (hstart : p.start = start) (hstop : p.stop = stop) (hbuffer : 0 ≤ p.buffer)
      (hsolve : p.solve timestamp = .ok solution) : Plans schedules start stop solution.tasks
  | target {p : TargetProblem} {solution : TargetSolution} (hschedules : p.schedules = schedules)
      (hstart : p.start = start) (hstop : p.stop = stop) (hbuffer : 0 ≤ p.buffer)
      (hsolve : p.solve = .ok solution) : Plans schedules start stop solution.tasks

section Plans

variable {schedules : Schedules} {start stop now : Int} {plan : TaskPlan}

theorem SelfConsumptionProblem.solve_eq_ok {p : SelfConsumptionProblem} {timestamp : Int}
    {solution : SelfConsumptionSolution} (h : p.solve timestamp = .ok solution) :
    1 ≤ p.slotLength ∧ solution.tasks = (allocation p.window
      (List.replicate (netForecast p.demand p.production).length (some 0))
      (netForecast p.demand p.production) p.schedules).1 := by
  obtain ⟨hslot, -, left, hallocation, -⟩ := p.solve_published h
  exact ⟨hslot, (congrArg Prod.fst hallocation).symm⟩

theorem TargetProblem.solve_eq_ok {p : TargetProblem} {solution : TargetSolution}
    (h : p.solve = .ok solution) :
    1 ≤ p.slotLength ∧ solution.tasks = (allocation p.window
      (p.goals (netForecast p.demand p.production).length)
      (netForecast p.demand p.production) p.schedules).1 := by
  rw [solve] at h
  split at h
  · cases h
  · rename_i hslot
    split at h
    · cases h
    · split at h
      · cases h
      · split at h
        · cases h
        · cases h
          exact ⟨by omega, rfl⟩

/-- Either optimisation allocates on slots that have a length. -/
theorem Schedules.Plans.allocated (h : schedules.Plans start stop plan) :
    ∃ (w : PlanningWindow) (goals : List (Option Int)) (ledger : List Int),
      1 ≤ w.slotLength ∧ 0 ≤ w.buffer ∧ w.start = start ∧
      plan = (allocation w goals ledger schedules).1 := by
  cases h with
  | @selfConsumption p _ _ hschedules hstart _ hbuffer hsolve =>
      obtain ⟨hslot, htasks⟩ := SelfConsumptionProblem.solve_eq_ok hsolve
      exact ⟨p.window, _, _, hslot, hbuffer, hstart, hschedules ▸ htasks⟩
  | @target p _ hschedules hstart _ hbuffer hsolve =>
      obtain ⟨hslot, htasks⟩ := TargetProblem.solve_eq_ok hsolve
      exact ⟨p.window, _, _, hslot, hbuffer, hstart, hschedules ▸ htasks⟩

/-- Every planned task goes back to one that the same device has listed. -/
theorem TaskPlan.exists_offer_of_mem {w : PlanningWindow} {goals : List (Option Int)}
    {ledger : List Int} {id : DeviceId} {planned : Task}
    (hmem : (id, planned) ∈ TaskPlan.toList (allocation w goals ledger schedules).1) :
    ∃ data f t ledger', schedules.get? id = some data ∧
      (data.plannable w).get? planned.flexibilityId = some (f, t) ∧
      planned = (planTask w goals f t ledger').1 := by
  obtain ⟨⟨device, tasks⟩, hentry, hmem⟩ := List.mem_flatMap.1 hmem
  obtain ⟨task, htask, heq⟩ := List.mem_map.1 hmem
  cases heq
  exact exists_offer_of_mem_allocation (OrderedMap.get?_eq_some_iff.2 hentry) htask

/-- What is planned from the answers of devices is awaited. -/
theorem StorageDevices.awaits_of_answers {devices : StorageDevices}
    (hanswers : ∀ id data, schedules.get? id = some data →
      ∃ d, devices.get? id = some d ∧ d.HasAnswered start stop now data)
    (hnow : now ≤ start) (hplan : schedules.Plans start stop plan) :
    ∀ e ∈ plan.toList, devices.Awaits e := by
  obtain ⟨w, goals, ledger, hgrid, hbuffer, hstart, rfl⟩ := hplan.allocated
  rintro ⟨id, planned⟩ he
  obtain ⟨data, f, t, ledger', hdata, hpair, rfl⟩ := TaskPlan.exists_offer_of_mem he
  obtain ⟨d, hd, hanswered⟩ := hanswers id data hdata
  have hfresh := hanswered.fresh
  obtain ⟨hadaptable, hawaits⟩ := hfresh.planned hnow hstart hgrid hbuffer hpair goals ledger'
  exact ⟨d, hd, hfresh.holds, hawaits, hadaptable⟩

/-- Devices take every task of a plan that has just been made from what they answered. -/
theorem StorageDevices.answered_plan_taken {devices : StorageDevices}
    (hanswers : ∀ id data, schedules.get? id = some data →
      ∃ d, devices.get? id = some d ∧ d.HasAnswered start stop now data)
    (hnow : now ≤ start) (hplan : schedules.Plans start stop plan) (adapter : Adapter) :
    ∃ commitments adapter' devices',
      commitTasks (transport now) schedules now plan.toList adapter devices
        = .ok (commitments, adapter', devices') ∧
      commitments.map (fun c => (c.device, c.task)) = plan.toList ∧
      ∀ c ∈ commitments, c.answer = .ok .ok :=
  commitTasks_taken now schedules plan.toList adapter devices
    (awaits_of_answers hanswers hnow hplan)

end Plans

/-- A battery of 6 kWh that was asked at 1:00 about the hour to come. -/
def askedBattery : StorageDevice where
  store :=
    { config := DeviceState.smallBattery
      zone := Zone.utc
      state := DeviceOperation.perform .fresh
        (.getSchedule ⟨1⟩ 90000 93600 90000 3000 Zone.utc DeviceState.smallBattery)
      file := ⟨0, 0, none, none⟩
      writable := true }
  battery := ⟨50, 0, ⟨6000, 2000, 2000⟩⟩
  fault := none

/-- What it answered. -/
def askedHour : ScheduleData where
  device := ⟨1⟩
  start := 90000
  stop := 93600
  tasks := [0].filterMap askedBattery.store.state.tasks.get?
  flexibilities := [0].filterMap askedBattery.store.state.flexibilities.get?
  constraints := []

theorem StorageDevices.answered_plan_taken_surplus :
    let p : SelfConsumptionProblem :=
      ⟨90000, 93600, 3600, [0], [-1000], OrderedMap.singleton ⟨1⟩ askedHour, 0⟩
    let planned : Task :=
      ⟨0, 0, true, 86400, 86400, .ofList [(0, 0), (3600, 1000), (7200, 0), (86400, 0)]⟩
    ∃ solution commitments adapter' devices', p.solve 0 = .ok solution ∧
      solution.tasks.toList = [(⟨1⟩, planned)] ∧
      commitTasks (transport 90000) p.schedules 90000 solution.tasks.toList
          ⟨.empty, .empty 900 300⟩ (OrderedMap.singleton ⟨1⟩ askedBattery)
        = .ok (commitments, adapter', devices') ∧
      commitments.map (fun c => (c.device, c.task)) = [(⟨1⟩, planned)] ∧
      ∀ c ∈ commitments, c.answer = .ok .ok := by
  intro p planned
  obtain ⟨solution, hsolve⟩ : ∃ solution, p.solve 0 = .ok solution := ⟨_, rfl⟩
  have htasks : solution.tasks.toList = [(⟨1⟩, planned)] := by
    rw [(SelfConsumptionProblem.solve_eq_ok hsolve).2]
    cbv
  have hquiet : DeviceState.fresh.socTargetActive 90000 = false := by decide
  have hordinary : Zone.utc.Ordinary := Zone.ordinary_of_mem _ (by simp)
  have hmoderate : DeviceState.smallBattery.Moderate :=
    ⟨by decide, by decide, by decide, by decide⟩
  have hget : DeviceState.fresh.getSchedule ⟨1⟩ 90000 93600 90000 3000 Zone.utc
      DeviceState.smallBattery
      = .ok (⟨⟨1⟩, 90000, 93600, [0], [0], []⟩, askedBattery.store.state) := rfl
  have hanswers : ∀ id data, p.schedules.get? id = some data →
      ∃ d, OrderedMap.get? (OrderedMap.singleton ⟨1⟩ askedBattery) id = some d ∧
        d.HasAnswered 90000 93600 90000 data := by
    intro id data hdata
    rw [OrderedMap.get?_singleton] at hdata
    split at hdata
    · rename_i hid
      cases hdata
      exact ⟨askedBattery, by rw [hid]; rfl, .fresh, ⟨1⟩, 3000, Zone.utc,
        DeviceState.smallBattery, .fresh, hquiet, ⟨hordinary _, hordinary _⟩, hmoderate,
        _, hget, rfl, rfl⟩
    · cases hdata
  have hplan : p.schedules.Plans 90000 93600 solution.tasks :=
    .selfConsumption rfl rfl rfl (Int.le_refl _) hsolve
  obtain ⟨commitments, adapter', devices', hcommit, hmap, hok⟩ :=
    answered_plan_taken hanswers (Int.le_refl _) hplan ⟨.empty, .empty 900 300⟩
  exact ⟨solution, commitments, adapter', devices', hsolve, htasks, hcommit, hmap.trans htasks, hok⟩

/-- 1.2 MWh, with a power that fits the narrow range for 30 hours. -/
def largeBattery : DeviceConfig := ⟨⟨1⟩, 1200000, 0, 100, 19884, 19884, 0⟩

/-- An empty large battery in Kathmandu that was asked about the first half hour of 1986,
    a day of more than 42 hours. -/
def longDayBattery : StorageDevice where
  store :=
    { config := largeBattery
      zone := Zone.kathmandu
      state := DeviceOperation.perform .fresh
        (.getSchedule ⟨1⟩ 504901800 504903600 504835200 0 Zone.kathmandu largeBattery)
      file := ⟨0, 0, none, none⟩
      writable := true }
  battery := ⟨0, 0, ⟨1200000, 19884, 19884⟩⟩
  fault := none

/-- Days have to be ordinary. Charging for 32 hours of a longer day takes more energy than
    the bound in the narrow range can express: the plan takes the bound for an open one,
    the device does not. -/
theorem StorageDevices.long_day_plan_refused :
    ∃ data solution planned,
      DeviceState.Reachable (fun _ => True) longDayBattery.store.state ∧
      longDayBattery.store.state.socTargetActive 504835200 = false ∧ largeBattery.Moderate ∧
      longDayBattery.store.state.Answers ⟨1⟩ 504835200 504950400 504835200 0 Zone.kathmandu
        largeBattery data longDayBattery.store.state ∧
      SelfConsumptionProblem.solve ⟨504835200, 504950400, 115200, [0], [-3000000],
        OrderedMap.singleton ⟨1⟩ data, 0⟩ 0 = .ok solution ∧
      solution.tasks.toList = [(⟨1⟩, planned)] ∧
      commitTasks (transport 504835200) (OrderedMap.singleton ⟨1⟩ data) 504835200
          solution.tasks.toList ⟨.empty, .empty 900 300⟩ (OrderedMap.singleton ⟨1⟩ longDayBattery)
        = .ok ([⟨⟨1⟩, planned, .ok .invalidData⟩], ⟨.empty, .empty 900 300⟩,
            OrderedMap.singleton ⟨1⟩ longDayBattery) := by
  have hget : longDayBattery.store.state.getSchedule ⟨1⟩ 504835200 504950400 504835200 0
      Zone.kathmandu largeBattery
      = .ok (⟨⟨1⟩, 504835200, 504950400, [0], [0], []⟩, longDayBattery.store.state) := rfl
  -- The long day has been listed by a single request.
  have hreachable : DeviceState.Reachable (fun _ => True) longDayBattery.store.state :=
    DeviceState.Reachable.fresh.foldl [.getSchedule ⟨1⟩ 504901800 504903600 504835200 0
      Zone.kathmandu largeBattery] fun _ _ => trivial
  let data : ScheduleData := ⟨⟨1⟩, 504835200, 504950400,
    [0].filterMap longDayBattery.store.state.tasks.get?,
    [0].filterMap longDayBattery.store.state.flexibilities.get?, []⟩
  let planned : Task :=
    ⟨0, 0, true, 504835200, 152100, .ofList [(0, 19884), (115200, 0), (152100, 0)]⟩
  obtain ⟨solution, hsolve⟩ : ∃ solution, SelfConsumptionProblem.solve ⟨504835200, 504950400,
      115200, [0], [-3000000], OrderedMap.singleton ⟨1⟩ data, 0⟩ 0 = .ok solution := ⟨_, rfl⟩
  have htasks : solution.tasks.toList = [(⟨1⟩, planned)] := by
    rw [(SelfConsumptionProblem.solve_eq_ok hsolve).2]
    cbv
  refine ⟨data, solution, planned, hreachable, by decide,
    ⟨by decide, by decide, by decide, by decide⟩, ⟨_, hget, rfl, rfl⟩, hsolve, htasks, ?_⟩
  rw [htasks]
  cbv

/-- The same for the devices of a site from which the schedules have been retrieved. -/
theorem StorageDevices.retrieved_plan_taken {devices devices' : StorageDevices}
    {now start stop : Int} {limit lanes : Nat} {ids : List DeviceId} {retrieval : Retrieval}
    {plan : TaskPlan}
    (hready : ∀ id ∈ ids, ∀ d, devices.get? id = some d → d.Ready start stop now)
    (hnow : now ≤ start)
    (hretrieve : retrieve (transport now).toScheduleSource limit lanes ids start stop devices
      = .ok (retrieval, devices'))
    (hplan : retrieval.schedules.Plans start stop plan) (adapter : Adapter) :
    ∃ commitments adapter' devices'',
      commitTasks (transport now) retrieval.schedules now plan.toList adapter devices'
        = .ok (commitments, adapter', devices'') ∧
      commitments.map (fun c => (c.device, c.task)) = plan.toList ∧
      ∀ c ∈ commitments, c.answer = .ok .ok := by
  obtain ⟨⟨replies, devices₁⟩, hreplies, heq⟩ := bind_eq_ok_iff.1 hretrieve
  cases heq
  have hanswered := fetchReplies_spec (fun d data d' hd => hd.lists) hready hreplies
  refine commitTasks_taken now _ plan.toList adapter devices'
    (awaits_of_answers (fun id data hdata => ?_) hnow hplan)
  have hanswer := hanswered id
  rw [hdata] at hanswer
  exact hanswer

end SiteDispatch
