/-
  SiteDispatch.Proofs.Snapshot.Codec

  Decoding undoes encoding.

  A codec is faithful to the values of which every number fits the width of its field. For
  numbers that is their range, and lists, tables and records inherit it from what they
  hold. All that a faithful codec writes is plain JSON, so that the text is read back first
  and the value then decoded from it.
-/

import SiteDispatch.Proofs.Json.Decoder
import SiteDispatch.Proofs.Snapshot.Newest
import SiteDispatch.Snapshot.Codec

namespace SiteDispatch

/-! ## Values that fit their fields -/

/-- Both ends of a range satisfy `P`. -/
def Interval.Ends (P : Int → Prop) (i : Interval) : Prop := P i.low ∧ P i.high

/-- All keys of a table satisfy `K` and all values `P`. -/
def OrderedMap.Entries {α : Type} (K : Int → Prop) (P : α → Prop) (m : OrderedMap Int α) : Prop :=
  ∀ e ∈ m.entries, K e.1 ∧ P e.2

/-- Every number of a flexibility fits its field. -/
structure Flexibility.Sized (f : Flexibility) : Prop where
  id : Fits32 f.id
  taskId : Fits32 f.taskId
  stoppingTime : f.stoppingTime.Ends Fits64
  runningTime : f.runningTime.Ends Fits32
  powerCorridor : f.powerCorridor.Entries Fits32 (Interval.Ends Fits32)
  energyCorridor : f.energyCorridor.Entries Fits32 (Interval.Ends Fits32)

/-- Every number of a task fits its field. -/
structure Task.Sized (t : Task) : Prop where
  id : Fits32 t.id
  flexibilityId : Fits32 t.flexibilityId
  startingTime : Fits64 t.startingTime
  runningTime : Fits32 t.runningTime
  power : t.power.Entries Fits32 Fits32

/-- Every number in the schedule of a device fits its field. -/
structure DeviceState.Sized (s : DeviceState) : Prop where
  idCounter : Fits32 s.idCounter
  targetSoc : Fits32 s.targetSoc
  targetSocTime : Fits64 s.targetSocTime
  flexibilities : s.flexibilities.Entries Fits32 Flexibility.Sized
  tasks : s.tasks.Entries Fits32 Task.Sized
  scheduledPower : s.scheduledPower.Entries Fits64 Fits32

/-- Every number of a published schedule fits its field. -/
structure PublicSchedule.Sized (s : PublicSchedule) : Prop where
  timestamp : Fits64 s.timestamp
  startingTime : Fits64 s.startingTime
  slotLength : Fits64 s.slotLength
  consumption : ∀ wh ∈ s.consumption, Fits32 wh
  production : ∀ wh ∈ s.production, Fits32 wh
  flexibleConsumption : ∀ wh ∈ s.flexibleConsumption, Fits32 wh
  flexibleProduction : ∀ wh ∈ s.flexibleProduction, Fits32 wh

/-- Both ends of a window to be published fit their fields. -/
structure PublicationRequest.Sized (r : PublicationRequest) : Prop where
  start : Fits64 r.start
  stop : Fits64 r.stop

/-- Every number of what a scheduler remembers fits its field. -/
structure SchedulerState.Sized (s : SchedulerState) : Prop where
  targets : s.targets.Entries Fits64 PublicSchedule.Sized
  lastTargetOptimization : Fits64 s.lastTargetOptimization
  latestInitialPublication : Fits64 s.latestInitialPublication
  latestUpdatePublication : Fits64 s.latestUpdatePublication
  incomplete : ∀ r ∈ s.incomplete, r.Sized

namespace Codec

/-- Values that satisfy `P` are written as plain JSON and decoded from it. -/
def Faithful {α : Type} (c : Codec α) (P : α → Prop) : Prop :=
  ∀ a, P a → (c.encode a).Plain ∧ c.decode? (c.encode a) = some a

section Faithful

variable {α : Type} {c : Codec α} {P : α → Prop}

/-- What is read from a text is what was written. -/
theorem Faithful.read?_write (h : c.Faithful P) {a : α} (ha : P a) :
    c.read? (c.write a) = some a := by
  obtain ⟨hplain, hdecode⟩ := h a ha
  rw [read?, write, String.toList_ofList, Json.parse_pretty hplain]
  exact hdecode

/-! ## Numbers, lists and tables -/

theorem int32_faithful : int32.Faithful Fits32 :=
  fun i hi => ⟨.integer i, if_pos hi⟩

theorem int64_faithful : int64.Faithful Fits64 :=
  fun i hi => ⟨.integer i, if_pos hi⟩

theorem bool_faithful : bool.Faithful fun _ => True :=
  fun b _ => ⟨.bool b, rfl⟩

theorem list_faithful (h : c.Faithful P) : (list c).Faithful (fun items => ∀ a ∈ items, P a) := by
  intro items hitems
  refine ⟨.list (List.forall_mem_map.2 fun a ha => (h a (hitems a ha)).1), ?_⟩
  exact Json.list?_map fun a ha => (h a (hitems a ha)).2

/-- A table, whatever width its keys have. -/
theorem ofTable_faithful {key : Codec Int} {K : Int → Prop} (hkey : key.Faithful K)
    (hform : key.encode = Json.integer) (h : c.Faithful P) :
    Faithful ⟨Json.ofTable c.encode, Json.table? key.decode? c.decode?⟩
      (OrderedMap.Entries K P) := by
  intro m hm
  refine ⟨Json.plain_ofTable fun e he => (h e.2 (hm e he).2).1, ?_⟩
  apply Json.table?_ofTable
  intro e he
  have hnumber := (hkey e.1 (hm e he).1).2
  rw [hform] at hnumber
  exact ⟨hnumber, (h e.2 (hm e he).2).2⟩

theorem table_faithful (h : c.Faithful P) : (table c).Faithful (OrderedMap.Entries Fits32 P) :=
  ofTable_faithful int32_faithful rfl h

theorem longTable_faithful (h : c.Faithful P) :
    (longTable c).Faithful (OrderedMap.Entries Fits64 P) :=
  ofTable_faithful int64_faithful rfl h

end Faithful

/-! ## Records -/

/-- A record is faithful if each of its fields is decoded from the value that is written under
    its name. -/
theorem record_faithful {α : Type} {c : Codec α} {P : α → Prop} (names : List (List Char))
    (values : α → List Json) (hencode : ∀ a, c.encode a = .object (names.zip (values a)))
    (hnames : ∀ name ∈ names, Json.PlainText name) (hnodup : names.Nodup)
    (hlength : ∀ a, (values a).length = names.length)
    (hfields : ∀ a, P a → (∀ value ∈ values a, value.Plain) ∧
      ∀ j, Json.record? names j = some (values a) → c.decode? j = some a) : c.Faithful P := by
  intro a ha
  obtain ⟨hplain, hdecode⟩ := hfields a ha
  rw [hencode]
  exact ⟨Json.plain_record _ hnames hplain,
    hdecode _ (Json.record?_object _ hnames hnodup (hlength a))⟩

theorem range_faithful {bound : Codec Int} {P : Int → Prop} (h : bound.Faithful P) :
    (range bound).Faithful (Interval.Ends P) := by
  apply record_faithful ["min".toList, "max".toList]
    (fun i => [bound.encode i.low, bound.encode i.high])
    (fun _ => rfl) (by decide) (by decide) (fun _ => rfl)
  intro i hi
  have hlow := h i.low hi.1
  have hhigh := h i.high hi.2
  constructor
  · simp [hlow.1, hhigh.1]
  · intro j hj
    simp only [range, hj, hlow.2, hhigh.2]
    rfl

theorem flexibility_faithful : flexibility.Faithful Flexibility.Sized := by
  apply record_faithful ["id".toList, "task_id".toList, "adaptable".toList,
      "stopping_time".toList, "running_time".toList, "power_corridor".toList,
      "energy_corridor".toList]
    (fun f => [int32.encode f.id, int32.encode f.taskId, bool.encode f.adaptable,
      (range int64).encode f.stoppingTime, (range int32).encode f.runningTime,
      (table (range int32)).encode f.powerCorridor, (table (range int32)).encode f.energyCorridor])
    (fun _ => rfl) (by decide) (by decide) (fun _ => rfl)
  intro f hf
  have hid := int32_faithful f.id hf.id
  have htaskId := int32_faithful f.taskId hf.taskId
  have hadaptable := bool_faithful f.adaptable trivial
  have hstoppingTime := range_faithful int64_faithful f.stoppingTime hf.stoppingTime
  have hrunningTime := range_faithful int32_faithful f.runningTime hf.runningTime
  have hpower := table_faithful (range_faithful int32_faithful) f.powerCorridor hf.powerCorridor
  have henergy := table_faithful (range_faithful int32_faithful) f.energyCorridor hf.energyCorridor
  constructor
  · simp [hid.1, htaskId.1, hadaptable.1, hstoppingTime.1, hrunningTime.1, hpower.1, henergy.1]
  · intro j hj
    simp only [flexibility, hj, hid.2, htaskId.2, hadaptable.2, hstoppingTime.2, hrunningTime.2,
      hpower.2, henergy.2]
    rfl

theorem task_faithful : task.Faithful Task.Sized := by
  apply record_faithful ["id".toList, "flexibility_id".toList, "adaptable".toList,
      "starting_time".toList, "running_time".toList, "power".toList]
    (fun t => [int32.encode t.id, int32.encode t.flexibilityId, bool.encode t.adaptable,
      int64.encode t.startingTime, int32.encode t.runningTime, (table int32).encode t.power])
    (fun _ => rfl) (by decide) (by decide) (fun _ => rfl)
  intro t ht
  have hid := int32_faithful t.id ht.id
  have hflexibilityId := int32_faithful t.flexibilityId ht.flexibilityId
  have hadaptable := bool_faithful t.adaptable trivial
  have hstart := int64_faithful t.startingTime ht.startingTime
  have hrunningTime := int32_faithful t.runningTime ht.runningTime
  have hpower := table_faithful int32_faithful t.power ht.power
  constructor
  · simp [hid.1, hflexibilityId.1, hadaptable.1, hstart.1, hrunningTime.1, hpower.1]
  · intro j hj
    simp only [task, hj, hid.2, hflexibilityId.2, hadaptable.2, hstart.2, hrunningTime.2, hpower.2]
    rfl

theorem deviceState_faithful : deviceState.Faithful DeviceState.Sized := by
  apply record_faithful ["id_counter".toList, "target_soc".toList, "target_soc_time".toList,
      "flexibilities".toList, "tasks".toList, "scheduled_power".toList]
    (fun s => [int32.encode s.idCounter, int32.encode s.targetSoc, int64.encode s.targetSocTime,
      (table flexibility).encode s.flexibilities, (table task).encode s.tasks,
      (longTable int32).encode s.scheduledPower])
    (fun _ => rfl) (by decide) (by decide) (fun _ => rfl)
  intro s hs
  have hcounter := int32_faithful s.idCounter hs.idCounter
  have hsoc := int32_faithful s.targetSoc hs.targetSoc
  have hsocTime := int64_faithful s.targetSocTime hs.targetSocTime
  have hflexibilities := table_faithful flexibility_faithful s.flexibilities hs.flexibilities
  have htasks := table_faithful task_faithful s.tasks hs.tasks
  have hpower := longTable_faithful int32_faithful s.scheduledPower hs.scheduledPower
  constructor
  · simp [hcounter.1, hsoc.1, hsocTime.1, hflexibilities.1, htasks.1, hpower.1]
  · intro j hj
    simp only [deviceState, hj, hcounter.2, hsoc.2, hsocTime.2, hflexibilities.2, htasks.2,
      hpower.2]
    rfl

theorem publicSchedule_faithful : publicSchedule.Faithful PublicSchedule.Sized := by
  apply record_faithful ["timestamp".toList, "starting_time".toList, "slot_length".toList,
      "consumption".toList, "production".toList, "flexible_consumption".toList,
      "flexible_production".toList]
    (fun s => [int64.encode s.timestamp, int64.encode s.startingTime, int64.encode s.slotLength,
      (list int32).encode s.consumption, (list int32).encode s.production,
      (list int32).encode s.flexibleConsumption, (list int32).encode s.flexibleProduction])
    (fun _ => rfl) (by decide) (by decide) (fun _ => rfl)
  intro s hs
  have htimestamp := int64_faithful s.timestamp hs.timestamp
  have hstart := int64_faithful s.startingTime hs.startingTime
  have hslot := int64_faithful s.slotLength hs.slotLength
  have hconsumption := list_faithful int32_faithful s.consumption hs.consumption
  have hproduction := list_faithful int32_faithful s.production hs.production
  have hflexConsumption := list_faithful int32_faithful s.flexibleConsumption
    hs.flexibleConsumption
  have hflexProduction := list_faithful int32_faithful s.flexibleProduction hs.flexibleProduction
  constructor
  · simp [htimestamp.1, hstart.1, hslot.1, hconsumption.1, hproduction.1, hflexConsumption.1,
      hflexProduction.1]
  · intro j hj
    simp only [publicSchedule, hj, htimestamp.2, hstart.2, hslot.2, hconsumption.2, hproduction.2,
      hflexConsumption.2, hflexProduction.2]
    rfl

/-- A kind of publication is written as its name. -/
theorem publicationKind_faithful : publicationKind.Faithful fun _ => True := by
  intro k _
  have hplain : Json.PlainText k.name.toList := by cases k <;> decide
  have hname : PublicationKind.ofName? k.name = some k := by cases k <;> rfl
  refine ⟨.text hplain, ?_⟩
  show (Json.content? k.name.toList).bind (fun name => PublicationKind.ofName? (String.ofList name))
    = some k
  rw [Json.content?_of_plain hplain, Option.bind_some, String.ofList_toList, hname]

theorem publicationRequest_faithful :
    publicationRequest.Faithful PublicationRequest.Sized := by
  apply record_faithful ["kind".toList, "from".toList, "to".toList]
    (fun r => [publicationKind.encode r.kind, int64.encode r.start, int64.encode r.stop])
    (fun _ => rfl) (by decide) (by decide) (fun _ => rfl)
  intro r hr
  have hkind := publicationKind_faithful r.kind trivial
  have hstart := int64_faithful r.start hr.start
  have hstop := int64_faithful r.stop hr.stop
  constructor
  · simp [hkind.1, hstart.1, hstop.1]
  · intro j hj
    simp only [publicationRequest, hj, hkind.2, hstart.2, hstop.2]
    rfl

theorem schedulerState_faithful : schedulerState.Faithful SchedulerState.Sized := by
  apply record_faithful ["target_schedules".toList, "most_recent_target_optimization".toList,
      "latest_initial_publication".toList, "latest_update_publication".toList,
      "incomplete_publications".toList]
    (fun s => [(longTable publicSchedule).encode s.targets, int64.encode s.lastTargetOptimization,
      int64.encode s.latestInitialPublication, int64.encode s.latestUpdatePublication,
      (list publicationRequest).encode s.incomplete])
    (fun _ => rfl) (by decide) (by decide) (fun _ => rfl)
  intro s hs
  have htargets := longTable_faithful publicSchedule_faithful s.targets hs.targets
  have hoptimized := int64_faithful s.lastTargetOptimization hs.lastTargetOptimization
  have hinitial := int64_faithful s.latestInitialPublication hs.latestInitialPublication
  have hupdate := int64_faithful s.latestUpdatePublication hs.latestUpdatePublication
  have hincomplete := list_faithful publicationRequest_faithful s.incomplete hs.incomplete
  constructor
  · simp [htargets.1, hoptimized.1, hinitial.1, hupdate.1, hincomplete.1]
  · intro j hj
    simp only [schedulerState, hj, htargets.2, hoptimized.2, hinitial.2, hupdate.2, hincomplete.2]
    rfl

/-! ## Snapshots -/

/-- A file with the text of `a` yields `a`, and stays in place. So does one to which the text is
    written as the next snapshot. -/
def Restores {α : Type} (c : Codec α) (a : α) : Prop :=
  ∀ (file : SnapshotFile String) (fresh : α),
    (file.content = some (c.write a) → file.load c.read? fresh = (a, .restored, file)) ∧
    (file.written ≤ file.staged → ∃ saved, file.save (c.write a) true = saved ∧
      saved.content = some (c.write a) ∧ saved.load c.read? fresh = (a, .restored, saved))

theorem Faithful.restores {α : Type} {c : Codec α} {P : α → Prop} (h : c.Faithful P) {a : α}
    (ha : P a) : c.Restores a := by
  have hload : ∀ (file : SnapshotFile String) (fresh : α), file.content = some (c.write a) →
      file.load c.read? fresh = (a, .restored, file) := by
    intro file fresh hcontent
    simp only [SnapshotFile.load, hcontent, h.read?_write ha]
  intro file fresh
  refine ⟨hload file fresh, fun hcounted => ⟨_, rfl, ?_⟩⟩
  have hcontent : (file.save (c.write a) true).content = some (c.write a) := by
    rw [SnapshotFile.save_eq hcounted]
  exact ⟨hcontent, hload _ fresh hcontent⟩

/-- The schedule of a device and what a scheduler remembers are restored exactly from the text
    they were written as, whatever numbers of their width they hold. -/
theorem snapshots_restore_states (device : DeviceState) (hdevice : device.Sized)
    (scheduler : SchedulerState) (hscheduler : scheduler.Sized) :
    deviceState.Restores device ∧ schedulerState.Restores scheduler :=
  ⟨deviceState_faithful.restores hdevice, schedulerState_faithful.restores hscheduler⟩

/-- A device that has used up its ids, with a flexibility under the least of them that may last
    from the first second to the last and asks for the least state of charge there is. -/
def extremeDevice : DeviceState where
  idCounter := 2147483647
  targetSoc := -2147483648
  targetSocTime := -9223372036854775808
  flexibilities := .singleton (-2147483648)
    { id := -2147483648
      taskId := -1
      adaptable := false
      stoppingTime := ⟨-9223372036854775808, 9223372036854775807⟩
      runningTime := ⟨0, 2147483647⟩
      powerCorridor := .singleton (-2147483648) Interval.unbounded
      energyCorridor := .empty }
  tasks := .empty
  scheduledPower := .singleton 9223372036854775807 (-2147483648)

/-- A scheduler that has yet to publish a window from the first second to the last. -/
def extremeScheduler : SchedulerState where
  targets := .singleton (-9223372036854775808)
    ⟨-9223372036854775808, 0, 900, [2147483647, -2147483648], [], [0], []⟩
  lastTargetOptimization := 9223372036854775807
  latestInitialPublication := -1
  latestUpdatePublication := 0
  incomplete := [⟨.scheduleUpdate, -9223372036854775808, 9223372036854775807⟩]

theorem snapshots_restore_states_extreme :
    extremeDevice.Sized ∧ extremeScheduler.Sized ∧
      deviceState.Restores extremeDevice ∧ schedulerState.Restores extremeScheduler := by
  have hdevice : extremeDevice.Sized := by
    refine ⟨by decide, by decide, by decide, ?_, nofun, ?_⟩
    · exact List.forall_mem_singleton.2 ⟨by decide, by decide, by decide,
        ⟨by decide, by decide⟩, ⟨by decide, by decide⟩,
        List.forall_mem_singleton.2 ⟨by decide, by decide, by decide⟩, nofun⟩
    · exact List.forall_mem_singleton.2 ⟨by decide, by decide⟩
  have hscheduler : extremeScheduler.Sized := by
    refine ⟨?_, by decide, by decide, by decide, ?_⟩
    · exact List.forall_mem_singleton.2 ⟨by decide, by decide, by decide, by decide, by decide,
        by decide, by decide, by decide⟩
    · exact List.forall_mem_singleton.2 ⟨by decide, by decide⟩
  exact ⟨hdevice, hscheduler, snapshots_restore_states extremeDevice hdevice extremeScheduler
    hscheduler⟩

end Codec
end SiteDispatch
