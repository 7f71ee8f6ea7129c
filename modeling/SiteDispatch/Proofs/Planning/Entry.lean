/-
  SiteDispatch.Proofs.Planning.Entry

  What a plan says about the time before its window.

  A profile begins with its task and the planning with the window, at the offset `entry` of the
  task. The draft starts with rest and is only ever extended at the offset that has been reached,
  so every planned profile rests up to `entry`, whatever the task did before.
-/

import SiteDispatch.Proofs.Planning.Delivery

namespace SiteDispatch

open PowerProfile

/-- A profile for the whole task that rests before the instant `start`. -/
structure Task.PlannedFrom (task : Task) (start : Int) : Prop where
  zero : 0 ∈ task.power.keys
  keys : ∀ k ∈ task.power.keys, 0 ≤ k
  ends : task.power.lastEntry? = some (task.runningTime, 0)
  rests : ∀ time < start, task.powerAt (time - task.startingTime) = 0

theorem Task.PlannedFrom.firstKey_eq {task : Task} {start : Int} (h : task.PlannedFrom start) :
    task.power.firstKey? = some 0 :=
  OrderedMap.firstKey?_eq_some_iff.2 ⟨h.zero, fun k hk => Int.not_lt.2 (h.keys k hk)⟩

theorem Task.PlannedFrom.lastKey_eq {task : Task} {start : Int} (h : task.PlannedFrom start) :
    task.power.lastKey? = some task.runningTime :=
  OrderedMap.lastKey?_eq_of_lastEntry h.ends

/-- Every draft starts with the task. -/
theorem Draft.zero_mem_keys_planned (d : Draft) : 0 ∈ d.planned.keys := by
  rw [planned, OrderedMap.mem_keys_iff_get?, OrderedMap.get?_ofList_cons, if_pos rfl]
  cases (OrderedMap.ofList d.chosen.reverse).get? 0 with
  | none => exact ⟨0, rfl⟩
  | some v => exact ⟨v, rfl⟩

section Way

variable {f : Flexibility} {w : PlanningWindow} {goals : List (Option Int)}
  {power energy : Corridor} {last : Int}

/-- A way that goes on from `here` leaves the entries before as they are. -/
theorem get?_foldl_extend_of_lt {k : Int} :
    ∀ {here : Int} {way : List Piece} {d : Draft}, Consecutive power energy last here way →
      k < here → (way.foldl (Draft.extend f w goals) d).planned.get? k = d.planned.get? k
  | _, [], _, _, _ => rfl
  | here, p :: rest, d, hway, hk => by
      obtain ⟨hstart, hlt, -, -, hrest⟩ := hway
      rw [List.foldl_cons, get?_foldl_extend_of_lt hrest (by omega), Draft.planned_extend,
        OrderedMap.get?_insert_of_ne (by omega)]

/-- It adds entries on its way only. -/
theorem mem_keys_foldl_extend {k : Int} :
    ∀ {here : Int} {way : List Piece} {d : Draft}, Consecutive power energy last here way →
      k ∈ (way.foldl (Draft.extend f w goals) d).planned.keys →
      k ∈ d.planned.keys ∨ (here ≤ k ∧ k < last)
  | _, [], _, _, hk => .inl hk
  | here, p :: rest, d, hway, hk => by
      obtain ⟨hstart, hlt, hle, -, hrest⟩ := hway
      rcases mem_keys_foldl_extend hrest hk with hk | hk
      · rcases Draft.mem_keys_extend.1 hk with rfl | hk
        · exact .inr (by omega)
        · exact .inl hk
      · exact .inr (by omega)

end Way

section PlanTask

variable {w : PlanningWindow} {task : Task} (hgrid : 1 ≤ w.slotLength) (hspans : w.Spans task)
  (goals : List (Option Int)) (f : Flexibility) (ledger : List Int)

include hgrid hspans

/-- The draft of a task has nothing but rest before the entry. -/
theorem get?_finishedDraft_of_lt {k : Int} (hk : k < w.entry task) :
    (finishedDraft w goals f task ledger).planned.get? k = if k = 0 then some 0 else none := by
  have hway := PlanningWindow.consecutive_piecesOf hgrid hspans.reach hspans.short
    f.powerCorridor f.energyCorridor ledger.length
  rw [finishedDraft, get?_foldl_extend_of_lt hway hk, Draft.planned_nil, OrderedMap.get?_singleton]

theorem mem_keys_finishedDraft {k : Int}
    (hk : k ∈ (finishedDraft w goals f task ledger).planned.keys) :
    k = 0 ∨ (w.entry task ≤ k ∧ k < task.runningTime) := by
  have hway := PlanningWindow.consecutive_piecesOf hgrid hspans.reach hspans.short
    f.powerCorridor f.energyCorridor ledger.length
  have hlast := PlanningWindow.walk_last_le w task
  rcases mem_keys_foldl_extend hway hk with hk | hk
  · rw [Draft.planned_nil, mem_keys_singleton] at hk
    exact .inl hk
  · exact .inr (by omega)

/-- Up to the entry a finished profile rests: what it adds to the draft is rest. -/
theorem powerAt_rested_of_lt (here : Int) {t : Int} (ht : t < w.entry task) :
    powerAt ((finishedDraft w goals f task ledger).rested here task.runningTime) t = 0 := by
  rw [powerAt]
  cases hfloor : OrderedMap.floorValue? ((finishedDraft w goals f task ledger).rested here
      task.runningTime) t with
  | none => rfl
  | some v =>
      obtain ⟨k, hget, hkt, -⟩ := OrderedMap.floorValue?_eq_some_iff.1 hfloor
      have hdraft := get?_finishedDraft_of_lt hgrid hspans goals f ledger (show k < w.entry task by omega)
      rw [Draft.rested, OrderedMap.get?_insert] at hget
      show v = 0
      split at hget
      · exact (Option.some.inj hget).symm
      · split at hget
        · rw [OrderedMap.get?_insert, hdraft] at hget
          split_ifs at hget <;> cases hget <;> rfl
        · rw [hdraft] at hget
          split_ifs at hget
          cases hget
          rfl

/-- A planned task rests before the window, from its own start on. -/
theorem planTask_plannedFrom (hlasts : 0 ≤ task.runningTime) :
    (planTask w goals f task ledger).1.PlannedFrom w.start := by
  have hentry := w.entry_nonneg task
  have hkeys : ∀ k ∈ (finishedDraft w goals f task ledger).planned.keys,
      0 ≤ k ∧ k ≤ task.runningTime := by
    intro k hk
    have := mem_keys_finishedDraft hgrid hspans goals f ledger hk
    omega
  have hfinish : w.entry task ≤ finish w f task ledger.length :=
    (PlanningWindow.consecutive_piecesOf hgrid hspans.reach hspans.short f.powerCorridor
      f.energyCorridor ledger.length).le_arrival
  rw [planTask_eq hgrid hspans]
  refine ⟨zero_mem_keys_compress ?_, fun k hk => ?_, ?_, fun time htime => ?_⟩
  · exact Draft.mem_keys_rested.2 (.inr (.inr (Draft.zero_mem_keys_planned _)))
  · rcases Draft.mem_keys_rested.1 (mem_keys_of_compress hk) with rfl | ⟨rfl, -⟩ | hk
    · exact hlasts
    · omega
    · exact (hkeys k hk).1
  · exact lastEntry?_compress (Draft.lastEntry?_rested fun k hk => (hkeys k hk).2)
  · show powerAt (compress _ _) (time - task.startingTime) = 0
    rw [powerAt_compress]
    apply powerAt_rested_of_lt hgrid hspans
    simp only [PlanningWindow.entry]
    omega

end PlanTask
end SiteDispatch
