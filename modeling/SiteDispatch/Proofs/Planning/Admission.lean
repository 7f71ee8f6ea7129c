/-
  SiteDispatch.Proofs.Planning.Admission

  Whatever is allocated passes the validity gate.

  Every planned task goes back to one that was offered for planning: a registered
  task of the device, or one derived from a free flexibility. Planning changes the
  profile only, so the ends of a planned task are those of the offered one, and a
  derived task ends in time because only flexibilities are derived from that can
  still be started. The corridors are kept by the draft.
-/

import SiteDispatch.Proofs.Planning.Draft

namespace SiteDispatch

open PowerProfile

/-! ## What is offered for planning -/

/-- The task is the one derived from a free flexibility that can still be started. -/
def Flexibility.Derives (f : Flexibility) (w : PlanningWindow) (task : Task) : Prop :=
  f.isFree ∧ w.earliestModifiable ≤ f.latestStart ∧ task = f.deriveTask w.start

/-- A task that a device offers for planning, with its flexibility. -/
structure ScheduleData.Offers (data : ScheduleData) (w : PlanningWindow) (f : Flexibility)
    (task : Task) : Prop where
  known : f ∈ data.flexibilities
  named : task.flexibilityId = f.id
  origin : (task ∈ data.tasks ∧ task.isReplanned w.earliestModifiable) ∨ f.Derives w task

section Offers

variable {data : ScheduleData} {w : PlanningWindow} {f : Flexibility} {task : Task}

/-- Folding insertions of offered pairs yields offered pairs. -/
theorem offers_foldl {β : Type} {insertInto : OrderedMap Int (Flexibility × Task) → β →
      OrderedMap Int (Flexibility × Task)} {l : List β}
    (hstep : ∀ found, ∀ b ∈ l, (∀ k f task, found.get? k = some (f, task) →
        f.id = k ∧ data.Offers w f task) →
      ∀ k f task, (insertInto found b).get? k = some (f, task) → f.id = k ∧ data.Offers w f task)
    {found : OrderedMap Int (Flexibility × Task)}
    (hfound : ∀ k f task, found.get? k = some (f, task) → f.id = k ∧ data.Offers w f task) :
    ∀ k f task, (l.foldl insertInto found).get? k = some (f, task) →
      f.id = k ∧ data.Offers w f task := by
  induction l generalizing found with
  | nil => exact hfound
  | cons b rest ih =>
      exact ih (fun found b hb => hstep found b (List.mem_cons_of_mem _ hb))
        (hstep found b (by simp) hfound)

/-- What is planned under an id is an offered task of that flexibility. -/
theorem offers_of_get?_plannable {k : Int} (h : (data.plannable w).get? k = some (f, task)) :
    f.id = k ∧ data.Offers w f task := by
  refine offers_foldl ?_ (offers_foldl ?_ ?_) k f task h
  · -- A free flexibility gets a derived task, unless one is found under its id already.
    intro found g hg hfound k f task hget
    split at hget
    · rename_i hfree
      simp only [Bool.and_eq_true, decide_eq_true_eq] at hfree
      rw [OrderedMap.get?_insertNew] at hget
      split at hget
      · rename_i hk
        rcases hcase : found.get? k with _ | old
        · rw [hcase, Option.none_or, Option.some.injEq, Prod.mk.injEq] at hget
          obtain ⟨rfl, rfl⟩ := hget
          exact ⟨hk.symm, hg, rfl, .inr ⟨hfree.1, hfree.2, rfl⟩⟩
        · rw [hcase, Option.some_or, ← hcase] at hget
          exact hfound k f task hget
      · exact hfound k f task hget
    · exact hfound k f task hget
  · -- A registered task is planned again with the first flexibility that has its id.
    intro found t ht hfound k f task hget
    split at hget
    · rename_i hreplanned
      split at hget
      · rename_i g hg
        rw [OrderedMap.get?_insert] at hget
        split at hget
        · rename_i hk
          simp only [Option.some.injEq, Prod.mk.injEq] at hget
          obtain ⟨rfl, rfl⟩ := hget
          have hid : g.id = t.flexibilityId := by simpa using List.find?_some hg
          exact ⟨hk.symm, List.mem_of_find?_eq_some hg, hid.symm, .inl ⟨ht, hreplanned⟩⟩
        · exact hfound k f task hget
      · exact hfound k f task hget
    · exact hfound k f task hget
  · intro k f task hget
    cases hget

end Offers

/-! ## What is planned -/

section Planned

variable {w : PlanningWindow} {goals : List (Option Int)}

theorem mem_planTasks {T : Task} :
    ∀ {l : List (Flexibility × Task)} {ledger : List Int}, T ∈ (planTasks w goals l ledger).1 →
      ∃ f task ledger', (f, task) ∈ l ∧ T = (planTask w goals f task ledger').1
  | (f, task) :: rest, ledger, h => by
      rcases List.mem_cons.1 h with rfl | h
      · exact ⟨f, task, ledger, by simp, rfl⟩
      · obtain ⟨g, t, ledger', hmem, heq⟩ := mem_planTasks (l := rest) h
        exact ⟨g, t, ledger', List.mem_cons_of_mem _ hmem, heq⟩

theorem mem_planDevices {device : DeviceId} {tasks : List Task} :
    ∀ {l : List (DeviceId × ScheduleData)} {ledger : List Int},
      (device, tasks) ∈ (planDevices w goals l ledger).1 →
      ∃ data ledger', (device, data) ∈ l ∧
        tasks = (planTasks w goals (data.plannable w).values ledger').1
  | (d, data) :: rest, ledger, h => by
      rcases List.mem_cons.1 h with heq | h
      · obtain ⟨rfl, rfl⟩ := Prod.mk.inj heq
        exact ⟨data, ledger, by simp, rfl⟩
      · obtain ⟨data', ledger', hmem, heq⟩ := mem_planDevices (l := rest) h
        exact ⟨data', ledger', List.mem_cons_of_mem _ hmem, heq⟩

/-- A planned task goes back to an offered one of the same device. -/
theorem exists_offer_of_mem_allocation {ledger : List Int} {schedules : Schedules}
    {device : DeviceId} {tasks : List Task} {T : Task}
    (h : (allocation w goals ledger schedules).1.get? device = some tasks) (hT : T ∈ tasks) :
    ∃ data f task ledger', schedules.get? device = some data ∧
      (data.plannable w).get? T.flexibilityId = some (f, task) ∧
      T = (planTask w goals f task ledger').1 := by
  have hmem : (device, tasks) ∈ (planDevices w goals schedules.entries ledger).1 := by
    rw [allocation, OrderedMap.get?_ofList, Option.map_eq_some_iff] at h
    obtain ⟨⟨d, ts⟩, hfind, rfl⟩ := h
    have hd : d = device := by simpa using List.find?_some hfind
    exact hd ▸ List.mem_reverse.1 (List.mem_of_find?_eq_some hfind)
  -- Back from the device to its schedule, and from the task to what was offered.
  obtain ⟨data, ledger', hdata, rfl⟩ := mem_planDevices hmem
  obtain ⟨f, task, ledger'', hpair, rfl⟩ := mem_planTasks hT
  obtain ⟨k, hk⟩ := OrderedMap.mem_values_iff_get?.1 hpair
  obtain ⟨hid, hoffers⟩ := offers_of_get?_plannable hk
  refine ⟨data, f, task, ledger'', OrderedMap.get?_eq_some_iff.2 hdata, ?_, rfl⟩
  show (data.plannable w).get? task.flexibilityId = _
  rw [hoffers.named, hid, hk]

end Planned

/-! ## Ends in time -/

/-- What makes an offered task end in time: a registered task does, and a flexibility
    from which a task is derived has an admissible end and an admissible duration. -/
def ScheduleData.EndsInTime (data : ScheduleData) (w : PlanningWindow) (f : Flexibility)
    (task : Task) : Prop :=
  (task ∈ data.tasks ∧ 0 ≤ task.runningTime ∧ task.runningTime ≤ f.runningTime.high ∧
      f.stoppingTime.contains task.stop) ∨
    (f.Derives w task ∧ f.stoppingTime.low ≤ f.stoppingTime.high ∧
      0 ≤ f.runningTime.low ∧ f.runningTime.low ≤ f.runningTime.high)

/-- A derived task ends in time if its flexibility can still be started. -/
theorem Flexibility.deriveTask_ends {f : Flexibility} {start : Int} (hlate : start ≤ f.latestStart)
    (hstop : f.stoppingTime.low ≤ f.stoppingTime.high) (hlow : 0 ≤ f.runningTime.low)
    (hrun : f.runningTime.low ≤ f.runningTime.high) :
    0 ≤ (f.deriveTask start).runningTime ∧
      (f.deriveTask start).runningTime ≤ f.runningTime.high ∧
      f.stoppingTime.contains (f.deriveTask start).stop := by
  simp only [latestStart] at hlate
  simp only [deriveTask, Task.idle, Task.stop, earliestStart, Interval.contains_iff]
  split_ifs <;> omega

theorem ScheduleData.EndsInTime.ends {data : ScheduleData} {w : PlanningWindow}
    {f : Flexibility} {task : Task} (h : data.EndsInTime w f task)
    (hstart : w.start ≤ w.earliestModifiable) :
    0 ≤ task.runningTime ∧ task.runningTime ≤ f.runningTime.high ∧
      f.stoppingTime.contains task.stop := by
  rcases h with ⟨-, hends⟩ | ⟨⟨-, hlate, rfl⟩, hstop, hlow, hrun⟩
  · exact hends
  · exact Flexibility.deriveTask_ends (hstart.trans hlate) hstop hlow hrun

/-! ## Admission -/

/-- An envelope in which a run of `runningTime` seconds that is planned from the
    offset `entry` on may rest at any time: 0 W and 0 Ws are admissible throughout,
    and from `r` on the energy bound does not tighten. Before `r` nothing is planned
    or nothing but 0 W is admissible. -/
structure Flexibility.RestsAnytime (f : Flexibility) (runningTime entry r : Int) : Prop where
  covered : ∃ k ∈ f.powerCorridor.keys, k ≤ 0
  rests : ∀ i ∈ f.powerCorridor.values, i.contains 0
  moderate : ∀ i ∈ f.powerCorridor.values, max |i.low| |i.high| * runningTime ≤ Quantity.greatest
  idles : ∀ t, 0 ≤ t → ∃ bound, f.energyConstraint? t = some bound ∧ bound.contains 0
  quiet : r ≤ entry ∨ ∀ t, 0 ≤ t → t < r → f.powerCorridor.floorValue? t = some Interval.zero
  widens : ∀ t u bound bound', r ≤ t → t ≤ u → f.energyConstraint? t = some bound →
    f.energyConstraint? u = some bound' → ∀ total, bound.contains total → bound'.contains total

theorem Flexibility.RestsAnytime.plannable {w : PlanningWindow} {f : Flexibility} {task : Task}
    {r : Int} (h : f.RestsAnytime task.runningTime (w.entry task) r) (hgrid : 1 ≤ w.slotLength)
    (hbuffer : 0 ≤ w.buffer) (hreach : w.entry task ≤ Quantity.greatest)
    (hshort : task.runningTime ≤ Quantity.greatest)
    (hends : 0 ≤ task.runningTime ∧ task.runningTime ≤ f.runningTime.high ∧
      f.stoppingTime.contains task.stop) :
    Plannable w f task r where
  grid := hgrid
  buffer := hbuffer
  reach := hreach
  lasts := hends.1
  short := hshort
  inTime := hends.2.1
  ends := hends.2.2
  covered := h.covered
  rests := h.rests
  moderate := h.moderate
  idles t ht _ := h.idles t ht
  quiet := h.quiet
  widens t u total ht hr htu := by
    rintro ⟨bound, hbound, hin⟩
    obtain ⟨bound', hbound', -⟩ := h.idles u (by omega)
    exact ⟨bound', hbound', h.widens t u bound bound' hr htu hbound hbound' total hin⟩

/-- On a grid of slots that have a length, an allocation answers, and every planned
    task passes the validity gate of the flexibility for which it was planned: if it
    ends in time, its offsets are in the narrow range and its envelope lets it rest
    at any time. -/
theorem allocate_accepted (w : PlanningWindow) (goals : List (Option Int)) (ledger : List Int)
    (schedules : Schedules) (hgrid : 1 ≤ w.slotLength) (hbuffer : 0 ≤ w.buffer)
    (hstart : w.start ≤ w.earliestModifiable) :
    ∃ plan left, allocate w goals ledger schedules = .ok (plan, left) ∧
      ∀ device tasks T, plan.get? device = some tasks → T ∈ tasks →
        ∃ data f task, schedules.get? device = some data ∧
          (data.plannable w).get? T.flexibilityId = some (f, task) ∧
          data.Offers w f task ∧ T = { task with power := T.power } ∧
          ∀ r, data.EndsInTime w f task → T.runningTime ≤ Quantity.greatest →
            w.entry T ≤ Quantity.greatest → f.RestsAnytime T.runningTime (w.entry T) r →
            f.validate T.startingTime T.power = .ok () := by
  have hok : allocate w goals ledger schedules = .ok (allocation w goals ledger schedules) := by
    rw [allocate, decide_eq_false (by omega), Bool.false_and, if_neg Bool.false_ne_true]
  refine ⟨_, _, hok, fun device tasks T hget hT => ?_⟩
  obtain ⟨data, f, task, ledger', hdata, hpair, rfl⟩ := exists_offer_of_mem_allocation hget hT
  refine ⟨data, f, task, hdata, hpair, (offers_of_get?_plannable hpair).2, rfl, ?_⟩
  intro r hends hshort hreach hrests
  -- Planning leaves the ends of the task as they are.
  have hrests' : f.RestsAnytime task.runningTime (w.entry task) r := hrests
  have hplannable : Plannable w f task r :=
    hrests'.plannable hgrid hbuffer hreach hshort (hends.ends hstart)
  exact Flexibility.validate_eq_ok_iff_fits.2 (hplannable.planTask_fits goals ledger')

/-- A battery of 2 kW for a quarter of an hour, half full. -/
def quarterHour : Flexibility where
  id := 1
  taskId := 1
  adaptable := true
  stoppingTime := ⟨900, 900⟩
  runningTime := ⟨0, 900⟩
  powerCorridor := OrderedMap.singleton 0 ⟨-2000, 2000⟩
  energyCorridor := OrderedMap.singleton 0 ⟨-3600000, 3600000⟩

theorem allocate_accepted_quarterHour :
    let w : PlanningWindow := ⟨0, 0, 900, 900, 0, 0⟩
    let task := Task.idle 1 1 true 0 900
    let data : ScheduleData := ⟨⟨7⟩, 0, 900, [task], [quarterHour], []⟩
    1 ≤ w.slotLength ∧ 0 ≤ w.buffer ∧ w.start ≤ w.earliestModifiable ∧
      ∃ plan left T, allocate w [some 100] [0] (OrderedMap.singleton ⟨7⟩ data) = .ok (plan, left) ∧
        plan.get? ⟨7⟩ = some [T] ∧ quarterHour.validate T.startingTime T.power = .ok () := by
  intro w task data
  refine ⟨by decide, by decide, by decide, ?_⟩
  obtain ⟨plan, left, hok, hall⟩ := allocate_accepted w [some 100] [0]
    (OrderedMap.singleton ⟨7⟩ data) (by decide) (by decide) (by decide)
  have hplan : plan.get? ⟨7⟩ = some [(planTask w [some 100] quarterHour task [0]).1] := by
    cases hok
    rfl
  refine ⟨plan, left, _, hok, hplan, ?_⟩
  obtain ⟨data', f, t, hdata, hpair, -, hT, hvalid⟩ := hall ⟨7⟩ _ _ hplan (List.mem_singleton.2 rfl)
  cases hdata
  cases hpair
  have henergy : ∀ t, 0 ≤ t →
      quarterHour.energyConstraint? t = some ⟨-3600000, 3600000⟩ := fun _ ht =>
    Flexibility.energyConstraint?_of_lastEntry? (k := 0) rfl ht
  refine hvalid 0 (.inl ⟨by decide, by decide, by decide, by decide⟩) (by decide) (by decide) ?_
  exact
    { covered := ⟨0, by decide, by decide⟩
      rests := by decide
      moderate := by decide
      idles := fun t ht => ⟨_, henergy t ht, by decide⟩
      quiet := .inl (by decide)
      widens := by
        intro t u bound bound' ht htu hbound hbound' total hin
        rw [henergy t ht] at hbound
        rw [henergy u (by omega)] at hbound'
        rwa [← Option.some.inj hbound', Option.some.inj hbound] }

end SiteDispatch
