/-
  SiteDispatch.Proofs.Transport.Local

  What is retrieved from devices that are reached directly.

  Such a device replies at once, so no reply is ever given up, and reading an object
  changes nothing. What comes back for a device is therefore what the state right
  after its answer holds under the ids named in the answer. Later requests to other
  devices leave that state alone, and a device asked once more replaces its data.
-/

import SiteDispatch.Proofs.Device.Offer
import SiteDispatch.Proofs.OrderedMap.Lookup
import SiteDispatch.Transport.Local
import SiteDispatch.Transport.Retrieval

namespace SiteDispatch

/-- A reply that comes at once is always waited for. -/
theorem Reply.within_immediate {α : Type} (limit : Nat) (device : DeviceId)
    (answer : Except TransportError α) :
    (Reply.immediate answer).within limit device = Reply.immediate answer := by
  show (if limit < 0 then _ else Reply.immediate answer) = _
  rw [if_neg (Nat.not_lt_zero limit)]

/-- Asked at `now`, the device answers with `data` and is `d'` afterwards. -/
def StorageDevice.Lists (d : StorageDevice) (start stop now : Int) (data : ScheduleData)
    (d' : StorageDevice) : Prop :=
  ∃ summary, d.getSchedule start stop now = .ok (summary, d') ∧
    data.tasks = summary.taskIds.filterMap d'.store.state.tasks.get? ∧
    data.flexibilities = summary.flexibilityIds.filterMap d'.store.state.flexibilities.get?

namespace StorageDevices

/-! ## One device -/

section Fetch

variable {now start stop : Int} {limit : Nat} {id : DeviceId} {devices devices' : StorageDevices}
  {d : StorageDevice} {reply : Reply ScheduleData}

/-- Reading an object of a device brings what is stored under its id. -/
theorem ask_read {α : Type} {read : StorageDevice → Except TransportError α} {found : Option α}
    (hd : devices.get? id = some d) (hread : (read d).toOption = found) :
    ∃ answer, ask id (fun d => (read d, d)) devices = .ok (.immediate answer, devices) ∧
      answer.toOption = found := by
  refine ⟨read d, ?_, hread⟩
  simp only [ask, hd, OrderedMap.insert_eq_self hd]

theorem getTask_read (hd : devices.get? id = some d) (k : Int) :
    ∃ answer, (transport now).getTask id k devices = .ok (.immediate answer, devices) ∧
      answer.toOption = d.store.state.tasks.get? k := by
  refine ask_read hd ?_
  rw [DeviceStore.task?]
  cases d.store.state.tasks.get? k <;> rfl

theorem getFlexibility_read (hd : devices.get? id = some d) (k : Int) :
    ∃ answer, (transport now).getFlexibility id k devices = .ok (.immediate answer, devices) ∧
      answer.toOption = d.store.state.flexibilities.get? k := by
  refine ask_read hd ?_
  rw [DeviceStore.flexibility?]
  cases d.store.state.flexibilities.get? k <;> rfl

/-- Objects that are read at once are all there. -/
theorem fetchObjects_read {α : Type} (limit : Nat) (id : DeviceId)
    {read : Int → DeviceCall StorageDevices α} {found : Int → Option α}
    (hread : ∀ k, ∃ answer, read k devices = .ok (.immediate answer, devices) ∧
      answer.toOption = found k) (ids : List Int) :
    fetchObjects limit id read ids devices = .ok ((ids.filterMap found, 0), devices) := by
  induction ids with
  | nil => rfl
  | cons k rest ih =>
      obtain ⟨answer, hanswer, hfound⟩ := hread k
      rw [fetchObjects]
      refine bind_eq_ok_iff.2 ⟨_, hanswer, bind_eq_ok_iff.2 ⟨_, ih, ?_⟩⟩
      simp only [Reply.within_immediate]
      show Except.ok ((answer.toOption.toList ++ _, max 0 0), devices) = _
      rw [List.filterMap_cons, hfound]
      cases found k <;> rfl

/-- A device either answers with what its new state holds under the ids it names, or
    there is no answer and nothing has changed. -/
theorem fetchSchedule_cases
    (h : fetchSchedule (transport now).toScheduleSource limit id start stop devices
      = .ok (reply, devices')) :
    (reply.answer.toOption = none ∧ devices' = devices) ∨
    ∃ d d' data, devices.get? id = some d ∧ d.Lists start stop now data d' ∧
      devices' = devices.insert id d' ∧ reply.answer = .ok data := by
  -- An unknown device and one that fails are left as they are.
  obtain ⟨⟨first, devices₁⟩, hasked, h⟩ := bind_eq_ok_iff.1 h
  dsimp only [transport, askStore] at hasked
  cases hd : devices.get? id with
  | none =>
      rw [hd] at hasked
      cases hasked
      cases h
      exact .inl ⟨rfl, rfl⟩
  | some d =>
      rw [hd] at hasked
      dsimp only at hasked
      cases hanswer : d.getSchedule start stop now with
      | error e =>
          rw [hanswer] at hasked
          obtain ⟨error, -, hasked⟩ := bind_eq_ok_iff.1 hasked
          cases hasked
          cases h
          exact .inl ⟨rfl, rfl⟩
      | ok answer =>
          obtain ⟨summary, d'⟩ := answer
          rw [hanswer] at hasked
          cases hasked
          -- The objects are read from the device as it is after its answer.
          have hd' : (devices.insert id d').get? id = some d' := OrderedMap.get?_insert_self _ _ _
          simp only [Reply.within_immediate] at h
          obtain ⟨fetched, hflex, h⟩ := bind_eq_ok_iff.1 h
          rw [fetchObjects_read limit id (getFlexibility_read hd')] at hflex
          cases hflex
          obtain ⟨fetched, htasks, h⟩ := bind_eq_ok_iff.1 h
          rw [fetchObjects_read limit id (getTask_read hd')] at htasks
          cases htasks
          cases h
          exact .inr ⟨d, d', _, rfl, ⟨summary, hanswer, rfl, rfl⟩, rfl, rfl⟩

end Fetch

/-! ## Several devices -/

section Replies

variable {now start stop : Int} {limit : Nat} {P : StorageDevice → Prop}
  {Q : ScheduleData → StorageDevice → Prop}

theorem get?_ofReplies_cons (device : DeviceId) (reply : Reply ScheduleData)
    (replies : List (DeviceId × Reply ScheduleData)) (j : DeviceId) :
    (Schedules.ofReplies ((device, reply) :: replies)).get? j
      = ((Schedules.ofReplies replies).get? j).or
          (if j = device then reply.answer.toOption else none) := by
  rw [Schedules.ofReplies]
  cases hanswer : reply.answer.toOption with
  | none =>
      rw [List.filterMap_cons_none (by simp [hanswer]), ite_self, Option.or_none]
      rfl
  | some data =>
      rw [List.filterMap_cons_some (b := (device, data)) (by simp [hanswer]),
        OrderedMap.get?_ofList_cons]
      rfl

/-- If an answer makes `Q` true of its data and the device, so do the answers of several
    devices for the data that is kept. A device without data is as it was. -/
theorem fetchReplies_spec
    (hstep : ∀ d data d', P d → d.Lists start stop now data d' → P d' ∧ Q data d') :
    ∀ {ids : List DeviceId} {devices devices' : StorageDevices}
      {replies : List (DeviceId × Reply ScheduleData)},
      (∀ id ∈ ids, ∀ d, devices.get? id = some d → P d) →
      fetchReplies (transport now).toScheduleSource limit start stop ids devices
        = .ok (replies, devices') →
      ∀ id, match (Schedules.ofReplies replies).get? id with
        | some data => ∃ d, devices'.get? id = some d ∧ Q data d
        | none => devices'.get? id = devices.get? id
  | [], devices, devices', replies, _, h => by
      cases h
      exact fun id => rfl
  | device :: rest, devices, devices', replies, hP, h => by
      -- The first device answers, then the rest are asked: induction on the list.
      obtain ⟨⟨reply, devices₁⟩, hfirst, h⟩ := bind_eq_ok_iff.1 h
      obtain ⟨⟨others, devices₂⟩, hrest, h⟩ := bind_eq_ok_iff.1 h
      cases h
      intro id
      rw [get?_ofReplies_cons]
      rcases fetchSchedule_cases hfirst with ⟨hnone, rfl⟩ | ⟨d, d', data, hd, hlists, rfl, hdata⟩
      · have hothers := fetchReplies_spec hstep
          (fun j hj => hP j (List.mem_cons_of_mem _ hj)) hrest id
        rw [hnone, ite_self, Option.or_none]
        exact hothers
      · obtain ⟨hP', hQ⟩ := hstep d data d' (hP device (by simp) d hd) hlists
        have hothers := fetchReplies_spec hstep (fun j hj e he => ?_) hrest id
        · -- What is asked of a device later replaces what it answered first.
          cases hlater : (Schedules.ofReplies others).get? id with
          | some later =>
              rw [hlater] at hothers
              exact hothers
          | none =>
              rw [hlater] at hothers
              dsimp only at hothers
              rw [Option.none_or, hothers, OrderedMap.get?_insert]
              by_cases hid : id = device
              · rw [if_pos hid, if_pos hid, hdata]
                exact ⟨d', rfl, hQ⟩
              · rw [if_neg hid, if_neg hid]
        · rw [OrderedMap.get?_insert] at he
          split at he
          · cases he
            exact hP'
          · exact hP j (List.mem_cons_of_mem _ hj) e he

end Replies

end StorageDevices
end SiteDispatch
