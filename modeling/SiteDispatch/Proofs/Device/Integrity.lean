/-
  SiteDispatch.Proofs.Device.Integrity

  The ids of a device name something, and each of them one thing.

  Flexibilities and tasks are added in pairs and forgotten in pairs, so neither ever refers to
  the other in vain. A new pair gets an id that is not in use, also after the counter has come
  round, as long as one of the ids is not in use.
-/

import SiteDispatch.Proofs.Device.Days
import SiteDispatch.Proofs.Device.Ids
import SiteDispatch.Proofs.Device.Requests

namespace SiteDispatch
namespace DeviceState

/-- Flexibilities and tasks have the same ids. What is stored under an id has that id, and the
    flexibility and the task under it name each other. -/
structure Consistent (s : DeviceState) : Prop where
  sameIds : s.tasks.keys = s.flexibilities.keys
  nonneg : ∀ id ∈ s.tasks.keys, 0 ≤ id
  flexibility : ∀ id f, s.flexibilities.get? id = some f → f.id = id ∧ f.taskId = id
  task : ∀ id t, s.tasks.get? id = some t → t.id = id ∧ t.flexibilityId = id

/-- Not all ids from 0 to the largest one are in use. -/
def HasFreeId (s : DeviceState) : Prop := s.tasks.size < 2 ^ 31

/-- A day is offered: there is a task for it already, or a pair is added under an id that is
    neither that of a flexibility nor that of a task. -/
inductive OffersDay (s : DeviceState) : Int × DeviceState → Prop
  | covered {id : Int} (hid : id ∈ s.tasks.keys) : OffersDay s (id, s)
  | created {id start stop stored : Int} {c : DeviceConfig} (hflexibility : id ∉ s.flexibilities.keys)
      (htask : id ∉ s.tasks.keys) : OffersDay s (id, s.withDay id start stop stored c)

section Integrity

variable {P : Int → Flexibility → Task → Prop} {s s' : DeviceState}

theorem Holds.consistent (h : s.Holds Linked) : s.Consistent where
  sameIds := h.paired.keys_eq.symm
  nonneg id hid := by
    obtain ⟨t, ht⟩ := OrderedMap.mem_keys_iff_get?.1 hid
    obtain ⟨f, -, hlinked⟩ := h.paired.of_task ht
    exact hlinked.nonneg
  flexibility id f hf := by
    obtain ⟨t, -, hlinked⟩ := h.paired.of_flexibility hf
    exact ⟨hlinked.flexibility, hlinked.assigned⟩
  task id t ht := by
    obtain ⟨f, -, hlinked⟩ := h.paired.of_task ht
    exact ⟨hlinked.task, hlinked.named⟩

/-! ## New days -/

/-- A pair that is added under a new id replaces nothing. -/
theorem OffersDay.withDay (h : s.Holds P) (hfree : s.HasFreeId) (start stop stored : Int)
    (c : DeviceConfig) : s.OffersDay (s.nextId, s.withDay s.nextId start stop stored c) := by
  have hroom : (s.tasks.size : Int) ≤ Quantity.greatest := by
    have hsize : s.tasks.size < 2 ^ 31 := hfree
    simp only [Quantity.greatest]
    omega
  obtain ⟨hflexibility, htask⟩ := h.nextId_free hroom
  exact .created (OrderedMap.get?_eq_none_iff.1 hflexibility) (OrderedMap.get?_eq_none_iff.1 htask)

/-- The id of a task that covers some instant is in use. -/
theorem Consistent.covered (h : s.Consistent) {k : Int} {t : Task}
    (ht : s.tasks.get? k = some t) : s.OffersDay (t.id, s) := by
  refine .covered ?_
  rw [(h.task k t ht).1]
  exact OrderedMap.mem_keys_iff_get?.2 ⟨t, ht⟩

theorem offersDay_addDay (h : s.Holds Linked) (hfree : s.HasFreeId) (start stop stored : Int)
    (c : DeviceConfig) : s.OffersDay (s.addDay start stop stored c) := by
  rcases s.addDay_cases start stop stored c with ⟨k, t, ht, -, heq⟩ | heq
  · rw [heq]
    exact h.consistent.covered ht
  · rw [heq]
    exact .withDay h hfree start stop stored c

theorem offersDay_ensureDay (h : s.Holds Linked) (hfree : s.HasFreeId) (time : Int)
    (stopIncluded : Bool) (now stored : Int) (zone : Zone) (c : DeviceConfig) :
    s.OffersDay (s.ensureDay time stopIncluded now stored zone c) := by
  rcases s.ensureDay_cases time stopIncluded now stored zone c with
    ⟨k, t, ht, -, heq⟩ | ⟨energy, heq⟩
  · rw [heq]
    exact h.consistent.covered ht
  · rw [heq]
    exact .withDay h hfree _ _ energy c

/-! ## Requests -/

/-- The days of a request are offered one after the other; what is listed are their ids, and
    nothing but corridors is changed afterwards. -/
theorem offersDays_getSchedule (h : s.Holds Linked) {device : DeviceId}
    {start stop now stored : Int} {zone : Zone} {c : DeviceConfig} {summary : ScheduleSummary}
    (hs' : s.getSchedule device start stop now stored zone c = .ok (summary, s')) :
    ∃ first s₁ last s₂, s.ensureDay start false now stored zone c = (first, s₁) ∧
      s₁.ensureDay stop true now stored zone c = (last, s₂) ∧
      (s.HasFreeId → s.OffersDay (first, s₁)) ∧ (s₁.HasFreeId → s₁.OffersDay (last, s₂)) ∧
      summary.taskIds = (if last = first then [first] else [first, last]) ∧
      s' = { s₂ with flexibilities := s'.flexibilities } := by
  have hinv : PairInvariant (· = .getSchedule device start stop now stored zone c) Linked :=
    linkedInvariant _
  obtain ⟨-, -, hids, -, hrefresh⟩ := getSchedule_eq_ok hs'
  obtain ⟨heq, -, -⟩ := refreshAll_spec hrefresh ((h.ensureDays hinv rfl).named hinv)
  have hfirst : (s.ensureDay start false now stored zone c).2.Holds Linked :=
    h.ensureDay hinv rfl (.inl rfl) false
  exact ⟨_, _, _, _, rfl, rfl, fun hfree => offersDay_ensureDay h hfree start false now stored zone c,
    fun hfree => offersDay_ensureDay hfirst hfree stop true now stored zone c, hids, heq⟩

/-- What creates no day brings in no id. -/
theorem amongInvariant (ids : List Int) :
    PairInvariant DeviceOperation.CreatesNoDay fun k f t => Linked k f t ∧ k ∈ ids where
  linked h := h.1
  newDay _ hday := hday.elim
  localDay hday := hday.elim
  corridors power energy h := h.imp_left ((linkedInvariant fun _ => True).corridors power energy)
  scheduled h hop hfits := h.imp_left fun h =>
    (linkedInvariant DeviceOperation.CreatesNoDay).scheduled h hop hfits
  adapted h hfits := h.imp_left fun h => (linkedInvariant fun _ => True).adapted h hfits
  rested h := h.imp_left (linkedInvariant fun _ => True).rested
  repaired h hcovers := h.imp_left fun h => (linkedInvariant fun _ => True).repaired h hcovers
  compressed h := h.imp_left (linkedInvariant fun _ => True).compressed

theorem Holds.keys_subset (h : s.Holds Linked) {op : DeviceOperation} (hop : op.CreatesNoDay) :
    (op.perform s).tasks.keys ⊆ s.tasks.keys := by
  have hamong : s.Holds fun k f t => Linked k f t ∧ k ∈ s.tasks.keys := by
    refine ⟨h.counter, fun k => (h.paired k).imp_right ?_⟩
    rintro ⟨f, t, hf, ht, hlinked⟩
    exact ⟨f, t, hf, ht, hlinked, OrderedMap.mem_keys_iff_get?.2 ⟨t, ht⟩⟩
  intro k hk
  obtain ⟨t, ht⟩ := OrderedMap.mem_keys_iff_get?.1 hk
  obtain ⟨f, -, -, hmem⟩ := (hamong.perform (amongInvariant _) hop).paired.of_task ht
  exact hmem

/-- A flexibility that has its task is never answered to lack it. -/
theorem Holds.knows_task (h : s.Holds Linked) (id : Int) :
    (∀ startingTime power now, (s.schedule id startingTime power now).1 ≠ .unknownTask) ∧
    (∀ update, (s.adapt id update).1 ≠ .unknownTask) ∧
    ∀ now, (s.unschedule id now).1 ≠ .unknownTask := by
  have hfound : ∀ f, s.flexibilities.get? id = some f → s.tasks.get? f.taskId ≠ none := by
    intro f hf hnone
    obtain ⟨t, ht, hlinked⟩ := h.paired.of_flexibility hf
    rw [hlinked.assigned, ht] at hnone
    cases hnone
  -- The rule of each request that answers so presupposes a missing task.
  refine ⟨fun startingTime power now hanswer => ?_, fun update hanswer => ?_,
    fun now hanswer => ?_⟩
  · cases schedule_answer_iff.1 hanswer with
    | unknownTask hf ht => exact hfound _ hf ht
  · cases adapt_answer_iff.1 hanswer with
    | unknownTask hf _ ht => exact hfound _ hf ht
  · cases unschedule_answer_iff.1 hanswer with
    | unknownTask hf ht => exact hfound _ hf ht

end Integrity

/-- Whatever a device has been asked, its flexibilities and tasks are consistent. Only `addDay`
    and `getSchedule` bring in new ids, and as long as an id is left these are not in use, wherever
    the counter is. So no request is ever answered by an unknown task. -/
theorem ids_of_reachable {s : DeviceState} (hs : Reachable (fun _ => True) s) :
    s.Consistent ∧
    (∀ op : DeviceOperation, op.CreatesNoDay → (op.perform s).tasks.keys ⊆ s.tasks.keys) ∧
    (∀ start stop stored c, s.HasFreeId → s.OffersDay (s.addDay start stop stored c)) ∧
    (∀ device start stop now stored zone c summary s',
      s.getSchedule device start stop now stored zone c = .ok (summary, s') →
      ∃ first s₁ last s₂, s.ensureDay start false now stored zone c = (first, s₁) ∧
        s₁.ensureDay stop true now stored zone c = (last, s₂) ∧
        (s.HasFreeId → s.OffersDay (first, s₁)) ∧ (s₁.HasFreeId → s₁.OffersDay (last, s₂)) ∧
        summary.taskIds = (if last = first then [first] else [first, last]) ∧
        s' = { s₂ with flexibilities := s'.flexibilities }) ∧
    ∀ id, (∀ startingTime power now, (s.schedule id startingTime power now).1 ≠ .unknownTask) ∧
      (∀ update, (s.adapt id update).1 ≠ .unknownTask) ∧
      ∀ now, (s.unschedule id now).1 ≠ .unknownTask := by
  have h : s.Holds Linked := hs.holds (linkedInvariant _)
  refine ⟨h.consistent, fun op hop => h.keys_subset hop, fun start stop stored c hfree => ?_,
    fun device start stop now stored zone c summary s' hs' => ?_, h.knows_task⟩
  · exact offersDay_addDay h hfree start stop stored c
  · exact offersDays_getSchedule h hs'

/-- After two days have been offered under 0 and 1, a third one gets another id. -/
theorem ids_of_reachable_twoWholeDays :
    twoWholeDays.Consistent ∧ twoWholeDays.tasks.keys = [0, 1] ∧
    ∃ s, twoWholeDays.addDay 172800 259200 3000 ⟨⟨1⟩, 6000, 10, 90, 2000, 2000, 100⟩ = (2, s) ∧
      twoWholeDays.OffersDay (2, s) ∧ 2 ∉ twoWholeDays.flexibilities.keys := by
  obtain ⟨hconsistent, -, hadd, -⟩ :=
    ids_of_reachable (reachable_twoWholeDays.mono fun _ _ => trivial)
  have hkeys : twoWholeDays.tasks.keys = [0, 1] := by decide +kernel
  have hfree : twoWholeDays.HasFreeId := by
    show twoWholeDays.tasks.size < 2 ^ 31
    decide +kernel
  have hid : (twoWholeDays.addDay 172800 259200 3000
      ⟨⟨1⟩, 6000, 10, 90, 2000, 2000, 100⟩).1 = 2 := by decide +kernel
  refine ⟨hconsistent, hkeys, _, Prod.ext hid rfl, ?_, ?_⟩
  · rw [← hid]
    exact hadd 172800 259200 3000 _ hfree
  · rw [← hconsistent.sameIds, hkeys]
    decide

/-- A counter that has come round passes the ids that are in use. -/
example : nextId { twoWholeDays with idCounter := idAfter Quantity.greatest } = 2 := by
  decide +kernel

end DeviceState
end SiteDispatch
