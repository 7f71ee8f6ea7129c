/-
  SiteDispatch.Proofs.Planning.Delivery

  The ledger shows what the plan delivers.

  A task is booked slot by slot while its draft is made: a slot that is complete, and
  the slot in which the way ends. `Draft.Books` relates the ledger to the profile made
  so far. The finished profile is that profile at rest before and after its way, so
  every slot has grown by what the finished task delivers in it, for one task as well
  as for all tasks of all devices in a row.
-/

import Mathlib
import SiteDispatch.Planning.Optimization
import SiteDispatch.Proofs.Planning.Draft
import SiteDispatch.Proofs.Planning.Slots

namespace SiteDispatch

open PowerProfile

/-! ## What tasks deliver -/

/-- Ws that a task delivers in the seconds from `start` to `stop` in which it runs. -/
noncomputable def Task.energyBetween (T : Task) (start stop : Int) : Int :=
  ∑ t ∈ (Finset.Ico start stop).filter (fun t => T.isRunning t), T.powerAt (t - T.startingTime)

/-- Wh that a task delivers in a slot. -/
noncomputable def Task.wattHoursIn (T : Task) (w : PlanningWindow) (slot : Nat) : Int :=
  Quantity.nearestWattHours (T.energyBetween (w.slotStart slot) (w.slotStart (slot + 1)))

/-- Wh that several tasks deliver in a slot. -/
noncomputable def wattHoursIn (w : PlanningWindow) (slot : Nat) (tasks : List Task) : Int :=
  (tasks.map fun T => T.wattHoursIn w slot).sum

/-- Seconds from `c` on do not count. -/
theorem sum_Ico_ite_lt (f : Int → Int) (a b c : Int) :
    ∑ t ∈ Finset.Ico a b, (if t < c then f t else 0) = ∑ t ∈ Finset.Ico a (min b c), f t := by
  rw [← Finset.sum_filter, Finset.Ico_filter_lt]

/-- A task at rest before its start and after its end delivers what its profile says at
    every offset. -/
theorem Task.energyBetween_eq {T : Task}
    (hrests : ∀ t, t < 0 ∨ T.runningTime ≤ t → PowerProfile.powerAt T.power t = 0)
    (start stop : Int) :
    T.energyBetween start stop
      = ∑ t ∈ Finset.Ico (start - T.startingTime) (stop - T.startingTime),
          PowerProfile.powerAt T.power t := by
  have hshift := sum_Ico_shift (fun t => PowerProfile.powerAt T.power (t - T.startingTime))
    T.startingTime (start - T.startingTime) (stop - T.startingTime)
  rw [show T.startingTime + (start - T.startingTime) = start by omega,
    show T.startingTime + (stop - T.startingTime) = stop by omega] at hshift
  rw [energyBetween, Finset.sum_filter]
  -- Where the task does not run its profile has nothing but 0 W.
  calc ∑ t ∈ Finset.Ico start stop,
        (if T.isRunning t = true then T.powerAt (t - T.startingTime) else 0)
      = ∑ t ∈ Finset.Ico start stop, PowerProfile.powerAt T.power (t - T.startingTime) := by
        refine Finset.sum_congr rfl fun t _ => ?_
        by_cases hruns : T.isRunning t
        · rw [if_pos hruns, Task.powerAt]
        · rw [if_neg hruns, hrests]
          rw [Task.isRunning_iff, Task.stop] at hruns
          omega
    _ = _ := by
        rw [hshift]
        refine Finset.sum_congr rfl fun t _ => ?_
        rw [show T.startingTime + t - T.startingTime = t by omega]

theorem wattHoursIn_nil (w : PlanningWindow) (slot : Nat) : wattHoursIn w slot [] = 0 := rfl

theorem wattHoursIn_cons (w : PlanningWindow) (slot : Nat) (T : Task) (rest : List Task) :
    wattHoursIn w slot (T :: rest) = T.wattHoursIn w slot + wattHoursIn w slot rest := rfl

/-! ## Ledgers that grow -/

/-- A ledger in which every slot has grown. -/
def grown (ledger : List Int) (growth : Nat → Int) : List Int :=
  ledger.mapIdx fun i booked => booked + growth i

section Grown

variable (ledger : List Int) (growth more : Nat → Int)

theorem length_grown : (grown ledger growth).length = ledger.length := by
  simp [grown]

theorem grown_of_zero (h : ∀ i, growth i = 0) : grown ledger growth = ledger := by
  simp [grown, h, List.mapIdx_eq_iff]

theorem grown_grown :
    grown (grown ledger growth) more = grown ledger fun i => growth i + more i := by
  simp only [grown, List.mapIdx_mapIdx, Function.comp_def, Int.add_assoc]

theorem book_eq_grown (slot : Nat) (wattHours : Int) :
    book ledger slot wattHours = grown ledger fun i => if i = slot then wattHours else 0 := by
  apply List.ext_getElem?
  intro i
  rw [book, grown, List.getElem?_modify, List.getElem?_mapIdx]
  by_cases hi : i = slot
  · simp [hi]
  · simp [hi, Ne.symm hi]

end Grown

/-! ## Booking along the way -/

namespace Draft

variable {begins : Nat → Int} {slotLength : Int} {ledger : List Int} {here : Int} {slot : Nat}
  {d : Draft} {f : Flexibility} {w : PlanningWindow} {goals : List (Option Int)} {p : Piece}

/-- The ledger that a draft has led to by the offset `here` in `slot`: earlier slots have
    grown by what has been delivered in them, later ones have not changed, and what has
    been delivered in this one is yet to be booked. -/
structure Books (begins : Nat → Int) (ledger : List Int) (here : Int) (slot : Nat) (d : Draft) :
    Prop where
  opens : begins slot ≤ here
  within : here < begins (slot + 1)
  keys : ∀ k ∈ d.planned.keys, 0 ≤ k ∧ k ≤ here
  pending : d.slotEnergy = ∑ t ∈ Finset.Ico (begins slot) here, powerAt d.planned t
  booked : d.ledger = grown ledger fun i => if i < slot then
    Quantity.nearestWattHours (∑ t ∈ Finset.Ico (begins i) (begins (i + 1)), powerAt d.planned t)
    else 0

/-- Before the first piece nothing has been delivered. -/
theorem books_start (hhere : 0 ≤ here) (hopens : begins slot ≤ here)
    (hwithin : here < begins (slot + 1)) : Books begins ledger here slot ⟨[], 0, 0, ledger⟩ := by
  have hsum : ∀ a b, ∑ t ∈ Finset.Ico a b, powerAt (OrderedMap.singleton 0 0) t = 0 :=
    fun _ _ => Finset.sum_eq_zero fun _ _ => powerAt_singleton_zero 0 _
  refine ⟨hopens, hwithin, ?_, ?_, ?_⟩
  · intro k hk
    rw [planned_nil, mem_keys_singleton] at hk
    omega
  · rw [planned_nil, hsum]
  · rw [planned_nil, grown_of_zero]
    intro i
    rw [hsum]
    exact ite_self 0

/-- A piece delivers in its slot, and a slot is booked when it is complete. -/
theorem Books.extend (hd : Books begins ledger p.start p.slot d) (hp : p.InSlot begins)
    (hlength : 1 ≤ slotLength) (hgrid : ∀ i, begins (i + 1) = begins i + slotLength)
    (h0 : 0 ≤ p.start) (f : Flexibility) (w : PlanningWindow) (goals : List (Option Int)) :
    Books begins ledger p.stop p.nextSlot (d.extend f w goals p) := by
  obtain ⟨hopens, hwithin⟩ := hp.position hlength hgrid
  have hforward := hp.forward
  have hkeys : ∀ k ∈ d.planned.keys, k ≤ p.start := fun k hk => (hd.keys k hk).2
  have hdelivered : ∑ t ∈ Finset.Ico (begins p.slot) p.stop,
      powerAt (d.extend f w goals p).planned t
        = d.slotEnergy + choosePower f w goals d p * p.length := by
    rw [sum_extend hkeys hp.opens hforward, hd.pending]
  -- What was delivered in earlier slots stays as it was.
  have hearlier : ∀ i < p.slot, ∑ t ∈ Finset.Ico (begins i) (begins (i + 1)),
      powerAt (d.extend f w goals p).planned t
        = ∑ t ∈ Finset.Ico (begins i) (begins (i + 1)), powerAt d.planned t := by
    intro i hi
    have hmono : begins (i + 1) ≤ begins p.slot :=
      monotone_nat_of_le_succ (fun j => by rw [hgrid j]; omega) hi
    exact sum_extend_of_le (hmono.trans hp.opens)
  have hkeys' : ∀ k ∈ (d.extend f w goals p).planned.keys, 0 ≤ k ∧ k ≤ p.stop := by
    intro k hk
    rcases mem_keys_extend.1 hk with rfl | hk
    · omega
    · have := hd.keys k hk
      omega
  cases hclose : p.closesSlot with
  | false =>
      obtain ⟨hpending, hledger⟩ := extend_of_open f w goals d hclose
      have hslot : p.nextSlot = p.slot := by simp [Piece.nextSlot, hclose]
      rw [hslot] at hopens hwithin ⊢
      refine ⟨hopens, hwithin, hkeys', by rw [hpending, hdelivered], ?_⟩
      rw [hledger, hd.booked]
      congr 1
      funext i
      split
      · rw [hearlier i ‹_›]
      · rfl
  | true =>
      obtain ⟨hpending, hledger⟩ := extend_of_closed f w goals d hclose
      have hslot : p.nextSlot = p.slot + 1 := by simp [Piece.nextSlot, hclose]
      have hstop := hp.closes.1 hclose
      rw [hslot] at hopens hwithin ⊢
      refine ⟨hopens, hwithin, hkeys', by rw [hpending, hstop, Finset.Ico_self, Finset.sum_empty], ?_⟩
      rw [hledger, hd.booked, book_eq_grown, grown_grown, ← hdelivered, hstop]
      congr 1
      funext i
      -- The slot that is closed is the only one that grows.
      rcases Nat.lt_trichotomy i p.slot with hi | rfl | hi
      · rw [if_pos hi, if_neg (by omega), if_pos (by omega), hearlier i hi, Int.add_zero]
      · rw [if_neg (by omega), if_pos rfl, if_pos (by omega), Int.zero_add]
      · rw [if_neg (by omega), if_neg (by omega), if_neg (by omega), Int.add_zero]

end Draft

/-! ## One task -/

/-- The distances between a window and a task that is planned in it fit the narrow range. -/
structure PlanningWindow.Spans (w : PlanningWindow) (task : Task) : Prop where
  reach : w.entry task ≤ Quantity.greatest
  short : task.runningTime ≤ Quantity.greatest

/-- The draft of a task when its way is over. -/
def finishedDraft (w : PlanningWindow) (goals : List (Option Int)) (f : Flexibility)
    (task : Task) (ledger : List Int) : Draft :=
  (w.piecesOf f.powerCorridor f.energyCorridor ledger.length task).foldl
    (Draft.extend f w goals) ⟨[], 0, 0, ledger⟩

/-- Offset at which the way of a task is over. -/
def finish (w : PlanningWindow) (f : Flexibility) (task : Task) (slots : Nat) : Int :=
  arrival (w.entry task) (w.piecesOf f.powerCorridor f.energyCorridor slots task)

/-- Slot in which the way of a task is over. -/
def finishSlot (w : PlanningWindow) (f : Flexibility) (task : Task) (slots : Nat) : Nat :=
  slotAfter (w.walk task).slot (w.piecesOf f.powerCorridor f.energyCorridor slots task)

/-- Booking nothing can be left out. -/
theorem Draft.book_pending (d : Draft) (slot : Nat) :
    (if d.slotEnergy = 0 then d.ledger
      else book d.ledger slot (Quantity.nearestWattHours d.slotEnergy))
      = book d.ledger slot (Quantity.nearestWattHours d.slotEnergy) := by
  split
  · rename_i hnothing
    rw [hnothing, Quantity.nearestWattHours_zero, book_eq_grown, grown_of_zero]
    exact fun i => ite_self 0
  · rfl

section PlanTask

variable {w : PlanningWindow} {task : Task} (hgrid : 1 ≤ w.slotLength)
  (horigin : w.origin ≤ w.start) (hspans : w.Spans task) (goals : List (Option Int))
  (f : Flexibility) (ledger : List Int)

include hgrid hspans

/-- A planned task is its finished draft: a profile at rest from the end of the way on, and
    a ledger in which the last slot is booked, too. -/
theorem planTask_eq :
    planTask w goals f task ledger =
      ({ task with power := compress ((finishedDraft w goals f task ledger).rested
          (finish w f task ledger.length) task.runningTime) task.runningTime },
        book (finishedDraft w goals f task ledger).ledger (finishSlot w f task ledger.length)
          (Quantity.nearestWattHours (finishedDraft w goals f task ledger).slotEnergy)) := by
  have hway := PlanningWindow.consecutive_piecesOf hgrid hspans.reach hspans.short
    f.powerCorridor f.energyCorridor ledger.length
  have hlast : (w.walk task).last ≤ Quantity.greatest :=
    (PlanningWindow.walk_last_le w task).trans hspans.short
  have hresume := resumesAt_eq_arrival hlast (w.entry_nonneg task) hway
  rw [finish, ← hresume, finishSlot, ← nextSlot_eq_slotAfter, ← Draft.book_pending,
    ← PlanningWindow.walk_start hspans.reach]
  rfl

/-- A way on which there is something to plan is over by the end of the task. -/
theorem finish_le {slots : Nat}
    (hway : w.piecesOf f.powerCorridor f.energyCorridor slots task ≠ []) :
    finish w f task slots ≤ task.runningTime :=
  ((PlanningWindow.consecutive_piecesOf hgrid hspans.reach hspans.short f.powerCorridor
    f.energyCorridor slots).arrival_le hway).trans (PlanningWindow.walk_last_le w task)

include horigin

/-- What every piece of the way keeps holds of the finished draft. -/
theorem finishedDraft_along {Inv : Int → Nat → Draft → Prop}
    (hstart : Inv (w.entry task) (w.walk task).slot ⟨[], 0, 0, ledger⟩)
    (hstep : ∀ p d, w.entry task ≤ p.start → p.stop ≤ task.runningTime →
      p.InSlot (w.slotOffset task) → Inv p.start p.slot d →
      Inv p.stop p.nextSlot (d.extend f w goals p)) :
    Inv (finish w f task ledger.length) (finishSlot w f task ledger.length)
      (finishedDraft w goals f task ledger) := by
  have hlast := PlanningWindow.walk_last_le w task
  have hway := PlanningWindow.consecutive_piecesOf hgrid hspans.reach hspans.short
    f.powerCorridor f.energyCorridor ledger.length
  have hslots := PlanningWindow.slotted_piecesOf hgrid horigin hspans.reach hspans.short
    f.powerCorridor f.energyCorridor ledger.length
  exact foldl_along (fun p d hp hle => hstep p d hp (hle.trans hlast)) (Int.le_refl _) hway hslots
    hstart

theorem books_finishedDraft :
    (finishedDraft w goals f task ledger).Books (w.slotOffset task) ledger
      (finish w f task ledger.length) (finishSlot w f task ledger.length) := by
  have hentry := w.entry_nonneg task
  have hstart : Draft.Books (w.slotOffset task) ledger (w.entry task) (w.walk task).slot
      ⟨[], 0, 0, ledger⟩ :=
    Draft.books_start hentry (PlanningWindow.slotOffset_walk_le hgrid horigin)
      (PlanningWindow.entry_lt_slotStop hgrid)
  exact finishedDraft_along hgrid horigin hspans goals f ledger hstart fun p d hp _ hslot hd =>
    hd.extend hslot hgrid (w.slotOffset_succ task) (hentry.trans hp) f w goals

/-- The finished profile is that of the draft, at rest from the end of the way on. -/
theorem powerAt_planTask (t : Int) :
    PowerProfile.powerAt (planTask w goals f task ledger).1.power t
      = if t < finish w f task ledger.length then
          PowerProfile.powerAt (finishedDraft w goals f task ledger).planned t
        else 0 := by
  have hbooks := books_finishedDraft hgrid horigin hspans goals f ledger
  rw [planTask_eq hgrid hspans, powerAt_compress]
  by_cases hnil : w.piecesOf f.powerCorridor f.energyCorridor ledger.length task = []
  · -- Without a piece everything is at rest, also before the end of the task.
    rw [finishedDraft, hnil, List.foldl_nil, Draft.powerAt_rested_nil, Draft.planned_nil,
      powerAt_singleton_zero, ite_self]
  · exact Draft.powerAt_rested (fun k hk => (hbooks.keys k hk).2) (finish_le hgrid hspans f hnil) t

/-- A planned task rests before its start and after its end. -/
theorem powerAt_planTask_eq_zero {t : Int} (ht : t < 0 ∨ task.runningTime ≤ t) :
    PowerProfile.powerAt (planTask w goals f task ledger).1.power t = 0 := by
  have hbooks := books_finishedDraft hgrid horigin hspans goals f ledger
  rw [powerAt_planTask hgrid horigin hspans]
  rcases ht with ht | ht
  · -- No entry comes before the start.
    rw [powerAt_eq_zero_of_lt fun k hk => Int.lt_of_lt_of_le ht (hbooks.keys k hk).1, ite_self]
  · by_cases hnil : w.piecesOf f.powerCorridor f.energyCorridor ledger.length task = []
    · rw [finishedDraft, hnil, List.foldl_nil, Draft.planned_nil, powerAt_singleton_zero, ite_self]
    · have hend := finish_le hgrid hspans f hnil
      rw [if_neg (by omega)]

/-- What a planned task delivers in a slot, at offsets from its own start. -/
theorem wattHoursIn_planTask (slot : Nat) :
    (planTask w goals f task ledger).1.wattHoursIn w slot
      = Quantity.nearestWattHours (∑ t ∈ Finset.Ico (w.slotOffset task slot)
          (min (w.slotOffset task (slot + 1)) (finish w f task ledger.length)),
          PowerProfile.powerAt (finishedDraft w goals f task ledger).planned t) := by
  have hpower := powerAt_planTask hgrid horigin hspans goals f ledger
  rw [Task.wattHoursIn, Task.energyBetween_eq fun t ht =>
    powerAt_planTask_eq_zero hgrid horigin hspans goals f ledger ht]
  simp only [hpower]
  rw [sum_Ico_ite_lt]
  rfl

/-- What a task adds to the ledger is what it delivers in every slot. -/
theorem planTask_ledger :
    (planTask w goals f task ledger).2
      = grown ledger fun i => (planTask w goals f task ledger).1.wattHoursIn w i := by
  have hbooks := books_finishedDraft hgrid horigin hspans goals f ledger
  have hmono : Monotone (w.slotOffset task) :=
    monotone_nat_of_le_succ fun i => by rw [w.slotOffset_succ]; omega
  simp only [wattHoursIn_planTask hgrid horigin hspans]
  rw [planTask_eq hgrid hspans]
  dsimp only
  rw [hbooks.booked, book_eq_grown, grown_grown]
  congr 1
  funext i
  rcases Nat.lt_trichotomy i (finishSlot w f task ledger.length) with hi | rfl | hi
  · -- An earlier slot lies before the end of the way.
    have hle : w.slotOffset task (i + 1) ≤ finish w f task ledger.length :=
      (hmono hi).trans hbooks.opens
    rw [min_eq_left hle, if_pos hi, if_neg (by omega), Int.add_zero]
  · -- The last slot is delivered to up to the end of the way.
    rw [min_eq_right hbooks.within.le, ← hbooks.pending, if_neg (by omega), if_pos rfl,
      Int.zero_add]
  · -- In a later one the task rests.
    have hle : finish w f task ledger.length ≤ w.slotOffset task i :=
      hbooks.within.le.trans (hmono hi)
    have hmin : min (w.slotOffset task (i + 1)) (finish w f task ledger.length)
        = finish w f task ledger.length := min_eq_right (hle.trans (hmono i.le_succ))
    rw [hmin, Finset.Ico_eq_empty_of_le hle, Finset.sum_empty, if_neg (by omega),
      if_neg (by omega)]
    rfl

end PlanTask

/-! ## All tasks -/

/-- The tasks of all devices of a plan. -/
def TaskPlan.tasks (plan : TaskPlan) : List Task := plan.values.flatten

/-- Everything that an allocation goes through, device by device. -/
def Schedules.agenda (schedules : Schedules) (w : PlanningWindow) : List (Flexibility × Task) :=
  schedules.entries.flatMap fun e => (e.2.plannable w).values

/-- The window is near every task that is planned in it. -/
def PlanningWindow.SpansAll (w : PlanningWindow) (schedules : Schedules) : Prop :=
  ∀ device data, schedules.get? device = some data →
    ∀ id f task, (data.plannable w).get? id = some (f, task) → w.Spans task

section Plan

variable {w : PlanningWindow} {goals : List (Option Int)}

theorem planTasks_append (l r : List (Flexibility × Task)) (ledger : List Int) :
    planTasks w goals (l ++ r) ledger
      = ((planTasks w goals l ledger).1
          ++ (planTasks w goals r (planTasks w goals l ledger).2).1,
        (planTasks w goals r (planTasks w goals l ledger).2).2) := by
  induction l generalizing ledger with
  | nil => rfl
  | cons e rest ih =>
      simp only [List.cons_append, planTasks, ih]

/-- Devices one after the other are their tasks one after the other. -/
theorem planDevices_eq_planTasks (l : List (DeviceId × ScheduleData)) (ledger : List Int) :
    ((planDevices w goals l ledger).1.flatMap (·.2), (planDevices w goals l ledger).2)
      = planTasks w goals (l.flatMap fun e => (e.2.plannable w).values) ledger := by
  induction l generalizing ledger with
  | nil => rfl
  | cons e rest ih =>
      rw [List.flatMap_cons, planTasks_append, ← ih]
      rfl

theorem fst_planDevices (l : List (DeviceId × ScheduleData)) (ledger : List Int) :
    (planDevices w goals l ledger).1.map (·.1) = l.map (·.1) := by
  induction l generalizing ledger with
  | nil => rfl
  | cons e rest ih => exact congrArg (e.1 :: ·) (ih _)

/-- An allocation plans its agenda: the plan holds the tasks as they were planned. -/
theorem allocation_eq_planTasks (w : PlanningWindow) (goals : List (Option Int))
    (ledger : List Int) (schedules : Schedules) :
    ((allocation w goals ledger schedules).1.tasks, (allocation w goals ledger schedules).2)
      = planTasks w goals (schedules.agenda w) ledger := by
  have hascending : ((planDevices w goals schedules.entries ledger).1.map (·.1)).Pairwise
      (· < ·) := by
    rw [fst_planDevices, List.pairwise_map]
    exact schedules.ascending
  have htasks : (allocation w goals ledger schedules).1.tasks
      = (planDevices w goals schedules.entries ledger).1.flatMap (·.2) := by
    show (OrderedMap.ofList (planDevices w goals schedules.entries ledger).1).values.flatten = _
    rw [OrderedMap.values, OrderedMap.entries_ofList (List.pairwise_map.1 hascending),
      List.flatMap_def]
  rw [htasks]
  exact planDevices_eq_planTasks schedules.entries ledger

/-- What is on the agenda is planned for some device. -/
theorem exists_plannable_of_mem_agenda {schedules : Schedules} {f : Flexibility} {task : Task}
    (h : (f, task) ∈ schedules.agenda w) :
    ∃ device data id, schedules.get? device = some data ∧
      (data.plannable w).get? id = some (f, task) := by
  obtain ⟨⟨device, data⟩, hmem, hpair⟩ := List.mem_flatMap.1 h
  obtain ⟨id, hid⟩ := OrderedMap.mem_values_iff_get?.1 hpair
  exact ⟨device, data, id, OrderedMap.get?_eq_some_iff.2 hmem, hid⟩

/-- On slots that have a length there is always a plan. -/
theorem allocate_eq_ok (hgrid : 1 ≤ w.slotLength) (goals : List (Option Int)) (ledger : List Int)
    (schedules : Schedules) :
    allocate w goals ledger schedules = .ok (allocation w goals ledger schedules) := by
  rw [allocate, decide_eq_false (by omega), Bool.false_and, if_neg Bool.false_ne_true]

/-- Tasks one after the other: what each of them adds is added up. -/
theorem planTasks_ledger (hgrid : 1 ≤ w.slotLength) (horigin : w.origin ≤ w.start)
    {l : List (Flexibility × Task)} (hspans : ∀ e ∈ l, w.Spans e.2) (ledger : List Int) :
    (planTasks w goals l ledger).2
      = grown ledger fun i => wattHoursIn w i (planTasks w goals l ledger).1 := by
  induction l generalizing ledger with
  | nil => exact (grown_of_zero ledger _ fun i => wattHoursIn_nil w i).symm
  | cons e rest ih =>
      obtain ⟨f, task⟩ := e
      have hone := planTask_ledger hgrid horigin (hspans (f, task) List.mem_cons_self) goals f
        ledger
      have hrest := ih (fun e he => hspans e (List.mem_cons_of_mem _ he))
        (planTask w goals f task ledger).2
      simp only [planTasks, wattHoursIn_cons]
      rw [← grown_grown, ← hone]
      exact hrest

theorem allocation_ledger (hgrid : 1 ≤ w.slotLength) (horigin : w.origin ≤ w.start)
    {schedules : Schedules} (hspans : w.SpansAll schedules) (goals : List (Option Int))
    (ledger : List Int) :
    (allocation w goals ledger schedules).2
      = grown ledger fun i => wattHoursIn w i (allocation w goals ledger schedules).1.tasks := by
  have hagenda : ∀ e ∈ schedules.agenda w, w.Spans e.2 := by
    rintro ⟨f, task⟩ he
    obtain ⟨device, data, id, hdata, hpair⟩ := exists_plannable_of_mem_agenda he
    exact hspans device data hdata id f task hpair
  obtain ⟨htasks, hleft⟩ := Prod.mk.inj (allocation_eq_planTasks w goals ledger schedules)
  rw [htasks, hleft]
  exact planTasks_ledger hgrid horigin hagenda ledger

end Plan

/-! ## The published schedule -/

theorem total_eq_sum (values : List Int) : total values = values.sum := rfl

/-- What is bought less what is sold is the whole exchange. -/
theorem total_filter_add_total_filter (values : List Int) :
    total (values.filter (0 < ·)) + total (values.filter (· < 0)) = total values := by
  simp only [total_eq_sum]
  induction values with
  | nil => rfl
  | cons x rest ih =>
      rcases Int.lt_trichotomy x 0 with hx | rfl | hx
      · have hnot : ¬ 0 < x := by omega
        simp only [List.filter_cons, hx, hnot, decide_true, decide_false, List.sum_cons, if_true,
          Bool.false_eq_true, if_false]
        omega
      · simpa [List.filter_cons] using ih
      · have hnot : ¬ x < 0 := by omega
        simp only [List.filter_cons, hx, hnot, decide_true, decide_false, List.sum_cons, if_true,
          Bool.false_eq_true, if_false]
        omega

/-- The values of a list by position add up to its sum. -/
theorem sum_range_getElem? (values : List Int) :
    ∑ i ∈ Finset.range values.length, (values[i]?).getD 0 = values.sum := by
  induction values with
  | nil => rfl
  | cons x rest ih =>
      rw [List.length_cons, Finset.sum_range_succ', List.sum_cons, ← ih, Int.add_comm]
      rfl

namespace SelfConsumptionProblem

variable {p : SelfConsumptionProblem} {timestamp : Int} {solution : SelfConsumptionSolution}

/-- What a solution is made of. -/
theorem solve_published (h : p.solve timestamp = .ok solution) :
    1 ≤ p.slotLength ∧ p.demand.length = p.production.length ∧
      ∃ left, allocation p.window
          (List.replicate (netForecast p.demand p.production).length (some 0))
          (netForecast p.demand p.production) p.schedules = (solution.tasks, left) ∧
        solution.schedule =
          { PublicSchedule.zero timestamp p.start p.slotLength
              (netForecast p.demand p.production).length with
            consumption :=
              List.zipWith (fun net produced => Quantity.low32 (net - produced)) left p.production
            production := p.production } ∧
        solution.expectedBought = total (left.filter (0 < ·)) ∧
        solution.expectedSold = -total (left.filter (· < 0)) := by
  rw [solve] at h
  split at h
  · cases h
  · rename_i hslot
    split at h
    · cases h
    · split at h
      · cases h
      · rename_i hforecasts
        cases h
        exact ⟨by omega, by omega, _, rfl, rfl, rfl, rfl⟩

/-- What a solution publishes is a ledger of the forecast and of what its plan delivers. -/
theorem solve_ledger (h : p.solve timestamp = .ok solution)
    (hspans : p.window.SpansAll p.schedules) :
    p.demand.length = p.production.length ∧
      ∃ left, left.length = p.production.length ∧
        (∀ i demand production, p.demand[i]? = some demand → p.production[i]? = some production →
          left[i]?
            = some (demand + production + wattHoursIn p.window i solution.tasks.tasks)) ∧
        solution.schedule =
          { PublicSchedule.zero timestamp p.start p.slotLength left.length with
            consumption :=
              List.zipWith (fun net produced => Quantity.low32 (net - produced)) left p.production
            production := p.production } ∧
        solution.expectedBought = total (left.filter (0 < ·)) ∧
        solution.expectedSold = -total (left.filter (· < 0)) := by
  obtain ⟨hgrid, hforecasts, left, hallocation, hschedule, hbought, hsold⟩ := solve_published h
  have hledger := allocation_ledger hgrid (Int.le_refl _) hspans
    (List.replicate (netForecast p.demand p.production).length (some 0))
    (netForecast p.demand p.production)
  rw [hallocation] at hledger
  dsimp only at hledger
  have hleft : left.length = (netForecast p.demand p.production).length := by
    rw [hledger, length_grown]
  refine ⟨hforecasts, left, ?_, ?_, hleft ▸ hschedule, hbought, hsold⟩
  · rw [hleft, netForecast, List.length_zipWith, hforecasts, Nat.min_self]
  · intro i demand production hdemand hproduction
    rw [hledger, grown, List.getElem?_mapIdx, netForecast, List.getElem?_zipWith, hdemand,
      hproduction]
    rfl

end SelfConsumptionProblem

/-- A net exchange that is published is the one in the ledger, as long as it fits the narrow
    range. -/
theorem net?_eq_of_ledger {timestamp start slotLength : Int} {left production : List Int}
    (hlength : left.length = production.length) {i : Nat} {net produced : Int}
    (hnet : left[i]? = some net) (hproduced : production[i]? = some produced)
    (hfits : Fits32 net) :
    PublicSchedule.net?
      { PublicSchedule.zero timestamp start slotLength left.length with
        consumption :=
          List.zipWith (fun net produced => Quantity.low32 (net - produced)) left production
        production := production } i = some net := by
  have hi : i < left.length := (List.getElem?_eq_some_iff.1 hnet).1
  have hi' : i < production.length := hlength ▸ hi
  -- What the consumption may have lost is not missed in the sum.
  have hsum : Quantity.low32 (Quantity.low32 (net - produced) + produced + 0 + 0) = net := by
    rw [Int.add_zero, Int.add_zero, Quantity.low32, Quantity.low32, Int.bmod_add_bmod,
      Int.sub_add_cancel]
    exact Quantity.low32_eq_self hfits.1 hfits.2
  simp only [PublicSchedule.net?, PublicSchedule.slots, PublicSchedule.zero,
    List.length_zipWith, List.getD_eq_getElem?_getD, List.getElem?_zipWith, hnet, hproduced,
    List.getElem?_replicate, hi, hi', lt_min_iff, and_self, if_true, Option.getD_some, hsum]

/-- Every slot of the ledger grows by exactly what all planned tasks together deliver in it.
    So a schedule of least exchange is published with the forecast and what the plan adds to
    it as its net exchange, as long as that fits the narrow range, and what is bought less what
    is sold is all of that together. -/
theorem ledger_grows_by_delivery :
    (∀ (w : PlanningWindow) (goals : List (Option Int)) (ledger : List Int)
        (schedules : Schedules), 1 ≤ w.slotLength → w.origin ≤ w.start → w.SpansAll schedules →
      ∃ plan left, allocate w goals ledger schedules = .ok (plan, left) ∧
        left = grown ledger fun i => wattHoursIn w i plan.tasks) ∧
    (∀ (p : SelfConsumptionProblem) (timestamp : Int) (solution : SelfConsumptionSolution),
      p.solve timestamp = .ok solution → p.window.SpansAll p.schedules →
      (∀ i demand production, p.demand[i]? = some demand → p.production[i]? = some production →
        Fits32 (demand + production + wattHoursIn p.window i solution.tasks.tasks)) →
      (∀ i demand production, p.demand[i]? = some demand → p.production[i]? = some production →
        solution.schedule.net? i
          = some (demand + production + wattHoursIn p.window i solution.tasks.tasks)) ∧
      solution.expectedBought - solution.expectedSold
        = ∑ i ∈ Finset.range p.demand.length, (solution.schedule.net? i).getD 0) := by
  constructor
  · intro w goals ledger schedules hgrid horigin hspans
    exact ⟨_, _, allocate_eq_ok hgrid goals ledger schedules,
      allocation_ledger hgrid horigin hspans goals ledger⟩
  · intro p timestamp solution hsolve hspans hnarrow
    obtain ⟨hforecasts, left, hlength, hledger, hschedule, hbought, hsold⟩ :=
      SelfConsumptionProblem.solve_ledger hsolve hspans
    -- The net exchange of a slot is what the ledger holds.
    have hnet : ∀ i demand production, p.demand[i]? = some demand →
        p.production[i]? = some production →
        solution.schedule.net? i
          = some (demand + production + wattHoursIn p.window i solution.tasks.tasks) := by
      intro i demand production hdemand hproduction
      rw [hschedule]
      exact net?_eq_of_ledger hlength (hledger i demand production hdemand hproduction)
        hproduction (hnarrow i demand production hdemand hproduction)
    refine ⟨hnet, ?_⟩
    calc solution.expectedBought - solution.expectedSold
        = total (left.filter (0 < ·)) + total (left.filter (· < 0)) := by
          rw [hbought, hsold, Int.sub_neg]
      _ = ∑ i ∈ Finset.range left.length, (left[i]?).getD 0 := by
          rw [total_filter_add_total_filter, sum_range_getElem?, total_eq_sum]
      _ = ∑ i ∈ Finset.range p.demand.length, (solution.schedule.net? i).getD 0 := by
          rw [hlength, ← hforecasts]
          refine Finset.sum_congr rfl fun i hi => ?_
          have hdemand := List.getElem?_eq_getElem (Finset.mem_range.1 hi)
          have hproduction := List.getElem?_eq_getElem (hforecasts ▸ Finset.mem_range.1 hi)
          rw [hledger i _ _ hdemand hproduction, hnet i _ _ hdemand hproduction]

/-- A battery for half an hour that discharges more slowly after ten minutes. -/
def halfHour : Flexibility where
  id := 1
  taskId := 1
  adaptable := true
  stoppingTime := ⟨3600, 3600⟩
  runningTime := ⟨1800, 1800⟩
  powerCorridor := (OrderedMap.singleton 0 ⟨-2000, 2000⟩).insert 600 ⟨-500, 2000⟩
  energyCorridor := .singleton 0 ⟨-3600000, 3600000⟩

/-- One hour to plan, with a battery that is at hand in its second half only. -/
def secondHalf : SelfConsumptionProblem where
  start := 0
  stop := 3600
  slotLength := 3600
  demand := [1000]
  production := [-200]
  schedules := .singleton ⟨7⟩
    ⟨⟨7⟩, 0, 3600, [Task.idle 1 1 true 1800 1800], [halfHour], []⟩
  buffer := 0

/-- The battery covers as much of the demand as it may. -/
def secondHalfPlan : TaskPlan := .singleton ⟨7⟩
  [{ Task.idle 1 1 true 1800 1800 with power := .ofList [(0, -800), (600, -500), (1800, 0)] }]

theorem allocate_secondHalf :
    allocate secondHalf.window [some 0] [800] secondHalf.schedules
      = .ok (secondHalfPlan, [500]) := by
  cbv

/-- The battery's task is all there is to plan. -/
theorem plannable_secondHalf {device : DeviceId} {data : ScheduleData} {id : Int}
    {f : Flexibility} {task : Task} (hdata : secondHalf.schedules.get? device = some data)
    (hpair : (data.plannable secondHalf.window).get? id = some (f, task)) :
    f = halfHour ∧ task = Task.idle 1 1 true 1800 1800 := by
  have hdata' := OrderedMap.get?_eq_some_iff.1 hdata
  obtain ⟨rfl, rfl⟩ := Prod.mk.inj (List.mem_singleton.1 hdata')
  have hplannable : ScheduleData.plannable
      ⟨⟨7⟩, 0, 3600, [Task.idle 1 1 true 1800 1800], [halfHour], []⟩ secondHalf.window
        = .singleton 1 (halfHour, Task.idle 1 1 true 1800 1800) := by
    cbv
  rw [hplannable, OrderedMap.get?_singleton] at hpair
  split at hpair
  · cases hpair
    exact ⟨rfl, rfl⟩
  · cases hpair

theorem spansAll_secondHalf : secondHalf.window.SpansAll secondHalf.schedules := by
  intro device data hdata id f task hpair
  obtain ⟨-, rfl⟩ := plannable_secondHalf hdata hpair
  exact ⟨by decide, by decide⟩

theorem ledger_grows_by_delivery_secondHalf :
    (1 ≤ secondHalf.window.slotLength ∧ secondHalf.window.origin ≤ secondHalf.window.start ∧
      secondHalf.window.SpansAll secondHalf.schedules ∧
      ∃ plan, allocate secondHalf.window [some 0] [800] secondHalf.schedules
          = .ok (plan, [500]) ∧
        [500] = grown [800] fun i => wattHoursIn secondHalf.window i plan.tasks) ∧
    ∃ solution, secondHalf.solve 0 = .ok solution ∧
      wattHoursIn secondHalf.window 0 solution.tasks.tasks = -300 ∧
      solution.schedule.net? 0
        = some (1000 + -200 + wattHoursIn secondHalf.window 0 solution.tasks.tasks) ∧
      solution.expectedBought - solution.expectedSold = 500 := by
  obtain ⟨hledger, hpublished⟩ := ledger_grows_by_delivery
  obtain ⟨plan, left, hok, hleft⟩ := hledger secondHalf.window [some 0] [800]
    secondHalf.schedules (by decide) (by decide) spansAll_secondHalf
  obtain ⟨rfl, rfl⟩ := Prod.mk.inj (Except.ok.inj (allocate_secondHalf.symm.trans hok))
  refine ⟨⟨by decide, by decide, spansAll_secondHalf, _, allocate_secondHalf, hleft⟩, ?_⟩
  have hgrowth : (500 : Int) = 800 + wattHoursIn secondHalf.window 0 secondHalfPlan.tasks :=
    (List.cons.inj hleft).1
  have hsolvable : ∃ solution, secondHalf.solve 0 = .ok solution := by
    rw [SelfConsumptionProblem.solve, if_neg (by decide), if_neg (by decide), if_neg (by decide)]
    exact ⟨_, rfl⟩
  obtain ⟨solution, hsolve⟩ := hsolvable
  obtain ⟨-, -, left, hallocation, -⟩ := SelfConsumptionProblem.solve_published hsolve
  obtain ⟨htasks, -⟩ := Prod.mk.inj
    ((Except.ok.inj allocate_secondHalf).symm.trans hallocation)
  have hdelivered : wattHoursIn secondHalf.window 0 solution.tasks.tasks = -300 := by
    rw [← htasks]
    omega
  have hnarrow : ∀ i demand production, secondHalf.demand[i]? = some demand →
      secondHalf.production[i]? = some production →
      Fits32 (demand + production + wattHoursIn secondHalf.window i solution.tasks.tasks) := by
    intro i demand production hdemand hproduction
    obtain ⟨hi, rfl⟩ := List.getElem?_eq_some_iff.1 hdemand
    obtain rfl : i = 0 := Nat.lt_one_iff.1 hi
    obtain rfl := Option.some.inj hproduction
    rw [hdelivered]
    show Fits32 (1000 + -200 + -300)
    decide
  obtain ⟨hnet, hexchange⟩ := hpublished secondHalf 0 solution hsolve spansAll_secondHalf hnarrow
  have hzero := hnet 0 1000 (-200) rfl rfl
  refine ⟨solution, hsolve, hdelivered, hzero, ?_⟩
  rw [hexchange, show secondHalf.demand.length = 1 from rfl, Finset.sum_range_one, hzero,
    hdelivered]
  rfl

end SiteDispatch
