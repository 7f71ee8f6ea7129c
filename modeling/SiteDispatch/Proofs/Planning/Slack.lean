/-
  SiteDispatch.Proofs.Planning.Slack

  The energy slack that is published is the sum over all tasks.

  A task has slack at the end of a slot exactly if the part of it that the window holds reaches
  that end. Its way through the window closes the slot once then, whatever breakpoints lie on it,
  and otherwise not at all, whether the task, the window or the last slot is what ends the way. So
  the shares that meet in a slot are one bound for each of these tasks, and their sum does not
  depend on the order in which they meet.
-/

import SiteDispatch.Planning.Slack
import SiteDispatch.Proofs.Planning.Delivery

namespace SiteDispatch

/-! ## Sums of bounds -/

/-- Wh that bounds add up to once each of them is narrowed, `openEnd` if one of them is open. -/
def summedBounds (openEnd : Int) (narrowed : Int → Int) (bounds : List Int) : Int :=
  if openEnd ∈ bounds then openEnd
  else Quantity.saturate (Quantity.wattHours (bounds.map narrowed).sum)

section SummedBounds

variable {openEnd : Int} {narrowed : Int → Int} {bounds : List Int}

/-- An open sum stays open. -/
theorem EnergySum.foldl_add_open (ws : Int → Int) (isOpen : Int → Bool) (bounds : List Int) :
    bounds.foldl (fun sum b => sum.add (ws b) (isOpen b)) EnergySum.open = .open := by
  induction bounds with
  | nil => rfl
  | cons b rest ih => exact ih

/-- Added one after the other, bounds are open or a sum. -/
theorem EnergySum.foldl_add (openEnd : Int) (narrowed : Int → Int) (bounds : List Int)
    (total : Int) :
    bounds.foldl (fun sum b => sum.add (narrowed b) (b = openEnd)) (EnergySum.finite total)
      = if openEnd ∈ bounds then .open else .finite (total + (bounds.map narrowed).sum) := by
  induction bounds generalizing total with
  | nil => simp
  | cons b rest ih =>
      -- From the first open bound on nothing changes any more.
      by_cases hb : b = openEnd
      · rw [List.foldl_cons, if_pos (hb ▸ List.mem_cons_self), decide_eq_true hb]
        exact foldl_add_open narrowed _ rest
      · rw [List.foldl_cons, decide_eq_false hb, add, ih, List.map_cons, List.sum_cons,
          Int.add_assoc]
        simp only [List.mem_cons, Ne.symm hb, false_or]

theorem wattHours_foldl_add (openEnd : Int) (narrowed : Int → Int) (bounds : List Int) :
    (bounds.foldl (fun sum b => sum.add (narrowed b) (b = openEnd))
      (EnergySum.finite 0)).wattHours openEnd = summedBounds openEnd narrowed bounds := by
  rw [EnergySum.foldl_add, summedBounds, Int.zero_add]
  split <;> rfl

/-- Only which bounds there are matters, and how often. -/
theorem summedBounds_perm {bounds' : List Int} (h : bounds.Perm bounds') :
    summedBounds openEnd narrowed bounds = summedBounds openEnd narrowed bounds' := by
  rw [summedBounds, summedBounds, (h.map narrowed).sum_eq]
  simp only [h.mem_iff]

theorem summedBounds_nonpos (hopen : openEnd ≤ 0) (h : ∀ b ∈ bounds, narrowed b ≤ 0) :
    summedBounds openEnd narrowed bounds ≤ 0 := by
  have hsum : (bounds.map narrowed).sum ≤ 0 := by simpa using List.sum_le_sum h
  rw [summedBounds]
  split
  · exact hopen
  · rw [Quantity.saturate, Quantity.wattHours, Quantity.least, Quantity.greatest]
    have := Int.tdiv_nonneg (a := -(bounds.map narrowed).sum) (b := 3600) (by omega) (by omega)
    rw [Int.neg_tdiv] at this
    omega

theorem summedBounds_nonneg (hopen : 0 ≤ openEnd) (h : ∀ b ∈ bounds, 0 ≤ narrowed b) :
    0 ≤ summedBounds openEnd narrowed bounds := by
  have hsum : 0 ≤ (bounds.map narrowed).sum := List.sum_nonneg (by simpa using h)
  rw [summedBounds]
  split
  · exact hopen
  · rw [Quantity.saturate, Quantity.wattHours, Quantity.least, Quantity.greatest]
    have := Int.tdiv_nonneg hsum (show (0 : Int) ≤ 3600 by decide)
    omega

end SummedBounds

/-! ## Slots that are completed -/

section Completed

variable {begins : Nat → Int} {slotLength : Int}

/-- The way closes a slot exactly once if it lies ahead and ends by `last`. -/
theorem resumesAt_closing (power energy : Corridor) {last : Int} {slots i : Nat} (hi : i < slots)
    (hlength : 1 ≤ slotLength) (hlast : last ≤ Quantity.greatest)
    (hgrid : ∀ i, begins (i + 1) = begins i + slotLength) (here : Int) (slot : Nat)
    (slotStop : Int) (hhere : 0 ≤ here) (hstop : here < slotStop)
    (hnext : begins (slot + 1) = slotStop) :
    ((pieces power energy slotLength last slots here slot slotStop).filter
        fun p => p.slot = i && p.closesSlot).map Piece.resumesAt
      = if slot ≤ i ∧ begins (i + 1) ≤ last then [begins (i + 1)] else [] := by
  fun_induction pieces power energy slotLength last slots here slot slotStop with
  | case1 here slot slotStop hgo next hclose ih =>
      have hlt : here < next := here_lt_nextOffset hgo.1 hstop
      have hle : next ≤ min slotStop last := nextOffset_le_min power energy last slotStop here
      have hkeep : Quantity.low32 next = next := low32_nextOffset hlast hhere hgo.1 hstop
      have hgrid' := hgrid (slot + 1)
      rw [hkeep] at ih ⊢
      have hrest := ih (by omega) (by omega) (by omega)
      by_cases hslot : slot = i
      · -- This is the slot, and the way does not come back to it.
        subst hslot
        rw [List.filter_cons_of_pos (by simp), List.map_cons, hrest, if_neg (by omega),
          if_pos (by omega), Piece.resumesAt, if_pos rfl, hkeep, hnext, hclose]
      · rw [List.filter_cons_of_neg (by simp [hslot]), hrest]
        simp only [show slot + 1 ≤ i ↔ slot ≤ i by omega]
  | case2 here slot slotStop hgo next hclose ih =>
      have hlt : here < next := here_lt_nextOffset hgo.1 hstop
      have hle : next ≤ min slotStop last := nextOffset_le_min power energy last slotStop here
      rw [List.filter_cons_of_neg (by simp)]
      exact ih (by omega) (by omega) hnext
  | case3 here slot slotStop hstay =>
      -- The way is over before the end of this slot and of all later ones.
      have hmono : Monotone begins := monotone_nat_of_le_succ fun j => by rw [hgrid j]; omega
      have hover : ¬ (slot ≤ i ∧ begins (i + 1) ≤ last) := by
        rintro ⟨hslot, hend⟩
        have := hmono (Nat.succ_le_succ hslot)
        simp only [Nat.succ_eq_add_one] at this
        omega
      rw [if_neg hover]
      rfl

end Completed

namespace PlanningWindow

variable {w : PlanningWindow} {task : Task} {i : Nat}

/-- The part of a task that the window holds reaches the end of a slot. -/
def ReachesEnd (w : PlanningWindow) (task : Task) (slot : Nat) : Prop :=
  max w.start task.startingTime < w.slotStart (slot + 1) ∧
    w.slotStart (slot + 1) ≤ min w.stop task.stop

instance (w : PlanningWindow) (task : Task) (slot : Nat) : Decidable (w.ReachesEnd task slot) :=
  inferInstanceAs (Decidable (_ ∧ _))

/-- The end of a slot is reached if it lies between the two ends of the walk. -/
theorem reachesEnd_iff_walk (hlength : 1 ≤ w.slotLength) (horigin : w.origin ≤ w.start) :
    w.ReachesEnd task i ↔
      (w.walk task).slot ≤ i ∧ w.slotOffset task (i + 1) ≤ (w.walk task).last := by
  have hopens : w.slotOffset task (w.walk task).slot ≤ w.entry task :=
    slotOffset_walk_le hlength horigin
  have hwithin : w.entry task < w.slotOffset task ((w.walk task).slot + 1) :=
    entry_lt_slotStop hlength
  have hmono : Monotone (w.slotOffset task) :=
    monotone_nat_of_le_succ fun j => by rw [w.slotOffset_succ]; omega
  -- A slot ends after the entry if the walk does not begin in a later one.
  have hslot : w.entry task < w.slotOffset task (i + 1) ↔ (w.walk task).slot ≤ i := by
    constructor
    · intro hlt
      by_contra hlater
      exact absurd (hmono (Nat.not_le.1 hlater)) (by simp only [Nat.succ_eq_add_one]; omega)
    · intro hle
      exact hwithin.trans_le (hmono (Nat.succ_le_succ hle))
  rw [← hslot]
  simp only [ReachesEnd, entry, walk, slotOffset, Task.stop]
  omega

theorem closing_piecesOf (hlength : 1 ≤ w.slotLength) (horigin : w.origin ≤ w.start)
    (hspans : w.Spans task) (power energy : Corridor) {slots : Nat} (hi : i < slots) :
    ((w.piecesOf power energy slots task).filter
        fun p => p.slot = i && p.closesSlot).map Piece.resumesAt
      = if w.ReachesEnd task i then [w.slotOffset task (i + 1)] else [] := by
  have hlast := walk_last_le w task
  have hshort := hspans.short
  simp only [reachesEnd_iff_walk hlength horigin]
  rw [piecesOf, walk_start hspans.reach]
  exact resumesAt_closing power energy hi hlength (by omega) (w.slotOffset_succ task) _ _ _
    (entry_nonneg w task) (entry_lt_slotStop hlength) (w.slotOffset_walk_succ task)

/-! ## The slack of all tasks -/

/-- What a task leaves of its energy at the end of a slot. -/
def leftAtEnd (w : PlanningWindow) (slot : Nat) (e : Flexibility × Task) : Interval :=
  ((e.1.residual e.2).energyConstraint? (w.slotOffset e.2 (slot + 1))).getD Interval.unbounded

/-- What all tasks that reach the end of a slot leave there, in Ws. -/
def slotBounds (w : PlanningWindow) (tasks : List (Flexibility × Task)) (slot : Nat) :
    List Interval :=
  (tasks.filter fun e => w.ReachesEnd e.2 slot).map (w.leftAtEnd slot)

/-- What they leave together, in Wh, with the buffer kept free on both sides. -/
def energySlack (w : PlanningWindow) (tasks : List (Flexibility × Task)) (slot : Nat) :
    Interval where
  low := summedBounds Quantity.least (fun b => min (b + w.buffer) 0)
    ((w.slotBounds tasks slot).map Interval.low)
  high := summedBounds Quantity.greatest (fun b => max (b - w.buffer) 0)
    ((w.slotBounds tasks slot).map Interval.high)

/-- The plan itself is always within the slack. -/
theorem energySlack_contains_zero (w : PlanningWindow) (tasks : List (Flexibility × Task))
    (slot : Nat) : (w.energySlack tasks slot).contains 0 :=
  Interval.contains_iff.2
    ⟨summedBounds_nonpos (by decide) fun b _ => by omega,
      summedBounds_nonneg (by decide) fun b _ => by omega⟩

theorem energySlack_perm {tasks tasks' : List (Flexibility × Task)} (h : tasks.Perm tasks')
    (slot : Nat) : w.energySlack tasks slot = w.energySlack tasks' slot := by
  have hbounds : (w.slotBounds tasks slot).Perm (w.slotBounds tasks' slot) :=
    (h.filter _).map _
  rw [energySlack, energySlack, summedBounds_perm (hbounds.map _),
    summedBounds_perm (hbounds.map _)]

end PlanningWindow

/-! ## The published corridor -/

namespace SlackShare

/-- Of several pieces in a slot those that close it have a share of its energy. -/
theorem energy_ofPiece (slotLength : Int) (residual : Flexibility) (i : Nat)
    (way : List Piece) :
    ((way.map (ofPiece slotLength residual)).filter fun s => s.slot = i).filterMap (·.energy)
      = ((way.filter fun p => p.slot = i && p.closesSlot).map Piece.resumesAt).map
          fun t => (residual.energyConstraint? t).getD Interval.unbounded := by
  induction way with
  | nil => rfl
  | cons p rest ih =>
      by_cases hslot : p.slot = i <;> cases hclose : p.closesSlot <;>
        simp [ofPiece, hslot, hclose, ih]

end SlackShare

variable {w : PlanningWindow} {plan : TaskPlan} {schedules : Schedules}

/-- A task has one share in the energy of a slot whose end it reaches. -/
theorem energy_ofTask (hlength : 1 ≤ w.slotLength) (horigin : w.origin ≤ w.start)
    {e : Flexibility × Task} (hspans : w.Spans e.2) {slots i : Nat} (hi : i < slots) :
    ((SlackShare.ofTask w slots e.1 e.2).filter fun s => s.slot = i).filterMap (·.energy)
      = if w.ReachesEnd e.2 i then [w.leftAtEnd i e] else [] := by
  rw [SlackShare.ofTask, SlackShare.energy_ofPiece,
    PlanningWindow.closing_piecesOf hlength horigin hspans _ _ hi]
  split <;> rfl

/-- The shares of all tasks in the energy of a slot. -/
theorem energy_ofTasks (hlength : 1 ≤ w.slotLength) (horigin : w.origin ≤ w.start)
    {tasks : List (Flexibility × Task)} (hspans : ∀ e ∈ tasks, w.Spans e.2) {slots i : Nat}
    (hi : i < slots) :
    ((tasks.flatMap fun e => SlackShare.ofTask w slots e.1 e.2).filter
        fun s => s.slot = i).filterMap (·.energy) = w.slotBounds tasks i := by
  induction tasks with
  | nil => rfl
  | cons e rest ih =>
      rw [List.flatMap_cons, List.filter_append, List.filterMap_append,
        energy_ofTask hlength horigin (hspans e List.mem_cons_self) hi,
        ih fun e' he' => hspans e' (List.mem_cons_of_mem _ he'), PlanningWindow.slotBounds,
        PlanningWindow.slotBounds, List.filter_cons]
      by_cases hend : w.ReachesEnd e.2 i <;> simp [hend]

theorem slotEnergy_eq (buffer : Int) (shares : List SlackShare) :
    slotEnergy buffer shares =
      ⟨summedBounds Quantity.least (fun b => min (b + buffer) 0)
          ((shares.filterMap (·.energy)).map Interval.low),
        summedBounds Quantity.greatest (fun b => max (b - buffer) 0)
          ((shares.filterMap (·.energy)).map Interval.high)⟩ := by
  simp only [← wattHours_foldl_add, List.foldl_map]
  rfl

theorem energyCorridor_planSlack (hlength : 1 ≤ w.slotLength) (horigin : w.origin ≤ w.start)
    (hspans : ∀ e ∈ plan.withFlexibilities schedules, w.Spans e.2) (slots : Nat)
    (timestamp : Int) :
    (planSlack w slots plan schedules timestamp).energyCorridor
      = (List.range slots).map (w.energySlack (plan.withFlexibilities schedules)) := by
  simp only [planSlack, List.map_map]
  refine List.map_congr_left fun i hi => ?_
  rw [Function.comp_apply, slotEnergy_eq,
    energy_ofTasks hlength horigin hspans (List.mem_range.1 hi)]
  rfl

/-- On slots that have a length there is always a slack. -/
theorem aggregate_eq_ok (hlength : 1 ≤ w.slotLength) (slots : Nat) (plan : TaskPlan)
    (schedules : Schedules) (timestamp : Int) :
    aggregate w slots plan schedules timestamp
      = .ok (planSlack w slots plan schedules timestamp) := by
  rw [aggregate, decide_eq_false (by omega), Bool.false_and, if_neg Bool.false_ne_true]

/-- The energy slack of a slot is published as the sum of what the tasks that reach its end leave
    there, and is open only where one of them is. It always holds the plan itself, and it is the
    same for every plan that has the same tasks, whichever devices they belong to and in whichever
    order they come. -/
theorem energyCorridor_eq_sum_over_tasks (hlength : 1 ≤ w.slotLength)
    (horigin : w.origin ≤ w.start)
    (hspans : ∀ e ∈ plan.withFlexibilities schedules, w.Spans e.2) (slots : Nat)
    (timestamp : Int) :
    ∃ slack, aggregate w slots plan schedules timestamp = .ok slack ∧
      slack.energyCorridor
        = (List.range slots).map (w.energySlack (plan.withFlexibilities schedules)) ∧
      (∀ published ∈ slack.energyCorridor, published.low ≤ 0 ∧ 0 ≤ published.high) ∧
      ∀ plan' schedules',
        (plan'.withFlexibilities schedules').Perm (plan.withFlexibilities schedules) →
        ∃ slack', aggregate w slots plan' schedules' timestamp = .ok slack' ∧
          slack'.energyCorridor = slack.energyCorridor := by
  have hcorridor := energyCorridor_planSlack hlength horigin hspans slots timestamp
  refine ⟨_, aggregate_eq_ok hlength slots plan schedules timestamp, hcorridor, ?_, ?_⟩
  · rw [hcorridor]
    intro published hpublished
    obtain ⟨i, -, rfl⟩ := List.mem_map.1 hpublished
    exact Interval.contains_iff.1 (w.energySlack_contains_zero _ i)
  · intro plan' schedules' hperm
    refine ⟨_, aggregate_eq_ok hlength slots plan' schedules' timestamp, ?_⟩
    rw [hcorridor, energyCorridor_planSlack hlength horigin
      (fun e he => hspans e (hperm.mem_iff.1 he))]
    exact List.map_congr_left fun i _ => PlanningWindow.energySlack_perm hperm i

/-- A battery that may give 1000 Wh, and gives 250 Wh in each of two slots. -/
def givingBattery : Flexibility × Task where
  fst :=
    { id := 2
      taskId := 2
      adaptable := true
      stoppingTime := ⟨1800, 1800⟩
      runningTime := ⟨1800, 1800⟩
      powerCorridor := .singleton 0 ⟨-2000, 2000⟩
      energyCorridor := .singleton 0 ⟨-3600000, 0⟩ }
  snd :=
    { Task.idle 2 2 true 0 1800 with power := .ofList [(0, -1000), (900, -1000), (1800, 0)] }

/-- A store that is at hand from the second slot on and may take what it likes. -/
def secondSlotStore : Flexibility × Task where
  fst :=
    { id := 3
      taskId := 3
      adaptable := true
      stoppingTime := ⟨1800, 1800⟩
      runningTime := ⟨900, 900⟩
      powerCorridor := .singleton 0 ⟨-500, 500⟩
      energyCorridor := .singleton 0 ⟨-360000, Quantity.greatest⟩ }
  snd := Task.idle 3 3 true 900 900

/-- A plan for two devices with a task each. -/
def planOfTwo (first second : Flexibility × Task) : TaskPlan :=
  .ofList [(⟨7⟩, [first.2]), (⟨8⟩, [second.2])]

/-- What the two devices offer. -/
def schedulesOfTwo (first second : Flexibility × Task) : Schedules :=
  .ofList [(⟨7⟩, ⟨⟨7⟩, 0, 1800, [], [first.1], []⟩), (⟨8⟩, ⟨⟨8⟩, 0, 1800, [], [second.1], []⟩)]

/-- Two slots and a half. -/
def twoSlotsAndHalf : PlanningWindow := ⟨0, 0, 2250, 900, 0, 0⟩

/-- The store is entered where the first slot ends, so that only the battery counts there. Nothing
    reaches the end of the third slot. Which of the two devices is which does not matter. -/
theorem energyCorridor_two_devices :
    ∃ slack, aggregate twoSlotsAndHalf 3 (planOfTwo givingBattery secondSlotStore)
        (schedulesOfTwo givingBattery secondSlotStore) 0 = .ok slack ∧
      slack.energyCorridor = [⟨-750, 250⟩, ⟨-600, Quantity.greatest⟩, ⟨0, 0⟩] ∧
      ∃ slack', aggregate twoSlotsAndHalf 3 (planOfTwo secondSlotStore givingBattery)
          (schedulesOfTwo secondSlotStore givingBattery) 0 = .ok slack' ∧
        slack'.energyCorridor = slack.energyCorridor := by
  have htasks : (planOfTwo givingBattery secondSlotStore).withFlexibilities
      (schedulesOfTwo givingBattery secondSlotStore) = [givingBattery, secondSlotStore] := by
    decide +kernel
  have hswapped : (planOfTwo secondSlotStore givingBattery).withFlexibilities
      (schedulesOfTwo secondSlotStore givingBattery) = [secondSlotStore, givingBattery] := by
    decide +kernel
  have hspans : ∀ e ∈ [givingBattery, secondSlotStore], twoSlotsAndHalf.Spans e.2 := by
    simp only [List.forall_mem_cons]
    exact ⟨⟨by decide, by decide⟩, ⟨by decide, by decide⟩, by simp⟩
  obtain ⟨slack, hok, hcorridor, -, hsame⟩ :=
    energyCorridor_eq_sum_over_tasks (w := twoSlotsAndHalf) (by decide) (by decide)
      (htasks ▸ hspans) 3 0
  refine ⟨slack, hok, ?_, hsame _ _ ?_⟩
  · rw [hcorridor, htasks]
    decide +kernel
  · rw [htasks, hswapped]
    exact .swap _ _ _

end SiteDispatch
