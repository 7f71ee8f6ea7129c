/-
  SiteDispatch.Proofs.Transport.Fanout

  The schedules of several devices, fetched side by side.

  Each device is asked for its summary, then for all flexibilities named in it, and once those
  have been answered for all tasks. Calls are answered one at a time and in any order, those of
  one device mixed with those of the others, each with a value or an error. The answers are
  collected where they belong, so that what comes of one device is told by its own answers
  (`Orderly`), whatever the order has been.
-/

import Mathlib.Algebra.Order.Ring.Nat
import Mathlib.Data.List.Nodup
import SiteDispatch.Proofs.Transport.Local

namespace SiteDispatch

/-! ## Calls made at the same time -/

/-- The answers to calls made at the same time, in the order of the calls. -/
abbrev AnswerSlots (α : Type) := List (Option (Except TransportError α))

section Slots

variable {α : Type} {ids : List Int} {slots : AnswerSlots α}
  {answered answered' : Nat → Int → Except TransportError α → Prop}

/-- The slots hold what has been answered to the calls for `ids`, each at its position. -/
structure Filled (ids : List Int) (slots : AnswerSlots α)
    (answered : Nat → Int → Except TransportError α → Prop) : Prop where
  length : slots.length = ids.length
  answers : ∀ i id a, answered i id a ↔ ids[i]? = some id ∧ slots[i]? = some (some a)

/-- `found` are the objects with which calls for `ids` have been answered, in this order. Each
    call has been answered once, if not with an object then with an error. -/
def Collected (ids : List Int) (answered : Nat → Int → Except TransportError α → Prop)
    (found : List α) : Prop :=
  ∃ answers : List (Except TransportError α), Filled ids (answers.map some) answered ∧
    found = answers.filterMap Except.toOption

theorem filled_open (ids : List Int) (h : ∀ i id a, ¬ answered i id a) :
    Filled ids (List.replicate ids.length none) answered where
  length := List.length_replicate
  answers i id a := by
    refine iff_of_false (h i id a) ?_
    rintro ⟨-, hslot⟩
    have hnone := List.eq_of_mem_replicate (List.mem_of_getElem? hslot)
    cases hnone

theorem Filled.congr (h : Filled ids slots answered)
    (hsame : ∀ i id a, answered' i id a ↔ answered i id a) : Filled ids slots answered' :=
  ⟨h.length, fun i id a => (hsame i id a).trans (h.answers i id a)⟩

/-- An open slot takes the answer to its call. -/
theorem Filled.set (h : Filled ids slots answered) {i : Nat} {id : Int} (hid : ids[i]? = some id)
    (hopen : slots[i]? = some none) (a : Except TransportError α) :
    Filled ids (slots.set i (some a)) fun j k b => answered j k b ∨ j = i ∧ k = id ∧ b = a where
  length := List.length_set.trans h.length
  answers j k b := by
    rw [h.answers]
    by_cases hj : i = j
    · -- It was open, so that nothing has been answered to this call before.
      subst hj
      obtain ⟨hlt, -⟩ := List.getElem?_eq_some_iff.1 hopen
      rw [List.getElem?_set_self hlt, hid, hopen]
      simp [eq_comm]
    · rw [List.getElem?_set_ne hj]
      simp [Ne.symm hj]

/-- If no slot is open all calls have been answered. -/
theorem exists_answers : ∀ {slots : AnswerSlots α}, none ∉ slots →
    ∃ answers : List (Except TransportError α), slots = answers.map some
  | [], _ => ⟨[], rfl⟩
  | none :: _, h => absurd List.mem_cons_self h
  | some a :: _, h => by
      obtain ⟨answers, rfl⟩ := exists_answers fun hmem => h (List.mem_cons_of_mem _ hmem)
      exact ⟨a :: answers, rfl⟩

/-- What has been answered determines what is collected. -/
theorem Collected.unique {found found' : List α} (h : Collected ids answered found)
    (h' : Collected ids answered found') : found = found' := by
  obtain ⟨answers, hfilled, rfl⟩ := h
  obtain ⟨answers', hfilled', rfl⟩ := h'
  have hlength : answers.length = answers'.length := by
    have h := hfilled.length.trans hfilled'.length.symm
    rwa [List.length_map, List.length_map] at h
  have hsame : answers = answers' := by
    refine List.ext_getElem hlength fun i hi hi' => ?_
    have hids : i < ids.length := by rwa [← hfilled.length, List.length_map]
    have hmem := (hfilled.answers i ids[i] answers[i]).2
      ⟨List.getElem?_eq_getElem hids, by rw [List.getElem?_map, List.getElem?_eq_getElem hi]; rfl⟩
    have hslot := ((hfilled'.answers i ids[i] answers[i]).1 hmem).2
    rw [List.getElem?_map, List.getElem?_eq_getElem hi'] at hslot
    exact (Option.some.inj (Option.some.inj hslot)).symm
  rw [hsame]

end Slots

/-! ## One device -/

/-- What a device answers to a call: for its summary, or for an object that is named at some
    position in that. -/
inductive FetchAnswer
  | summary (answer : Except TransportError ScheduleSummary)
  | flexibility (position : Nat) (id : Int) (answer : Except TransportError Flexibility)
  | task (position : Nat) (id : Int) (answer : Except TransportError Task)

/-- An answer and the device that gives it. -/
abbrev FetchEvent := DeviceId × FetchAnswer

/-- The schedule of a device while it is fetched. -/
structure Fetch where
  summary : Option (Except TransportError ScheduleSummary)
  flexibilities : AnswerSlots Flexibility
  tasks : AnswerSlots Task

/-- The schedule with the objects that have been answered. -/
def ScheduleSummary.assemble (s : ScheduleSummary) (flexibilities : List Flexibility)
    (tasks : List Task) : ScheduleData where
  device := s.device
  start := s.start
  stop := s.stop
  tasks := tasks
  flexibilities := flexibilities
  constraints := s.constraints

namespace Fetch

/-- A fetch that has just begun. -/
def fresh : Fetch := ⟨none, [], []⟩

/-- The summary once it is there. -/
def known (x : Fetch) : Option ScheduleSummary := x.summary.bind Except.toOption

def flexibilityIds (x : Fetch) : List Int := x.known.elim [] (·.flexibilityIds)

def taskIds (x : Fetch) : List Int := x.known.elim [] (·.taskIds)

/-- The fetch after an answer for the summary: its objects are to come. -/
def summarized (answer : Except TransportError ScheduleSummary) : Fetch where
  summary := some answer
  flexibilities := List.replicate (answer.toOption.elim [] (·.flexibilityIds)).length none
  tasks := List.replicate (answer.toOption.elim [] (·.taskIds)).length none

/-- The fetch goes on with an answer. Tasks are asked for when all flexibilities have been
    answered. -/
inductive Takes (x : Fetch) : FetchAnswer → Fetch → Prop
  | summary (hasked : x.summary = none) (answer : Except TransportError ScheduleSummary) :
      Takes x (.summary answer) (summarized answer)
  | flexibility {i : Nat} {id : Int} (hid : x.flexibilityIds[i]? = some id)
      (hopen : x.flexibilities[i]? = some none) (answer : Except TransportError Flexibility) :
      Takes x (.flexibility i id answer)
        { x with flexibilities := x.flexibilities.set i (some answer) }
  | task {i : Nat} {id : Int} (hdone : none ∉ x.flexibilities) (hid : x.taskIds[i]? = some id)
      (hopen : x.tasks[i]? = some none) (answer : Except TransportError Task) :
      Takes x (.task i id answer) { x with tasks := x.tasks.set i (some answer) }

/-- The fetch is over. Without a summary there is an error, otherwise the schedule with those
    objects for which there is none. -/
inductive Gives (x : Fetch) : Except TransportError ScheduleData → Prop
  | failed {e : TransportError} (hsummary : x.summary = some (.error e)) : Gives x (.error e)
  | fetched {s : ScheduleSummary} {flexibilities : List (Except TransportError Flexibility)}
      {tasks : List (Except TransportError Task)} (hsummary : x.summary = some (.ok s))
      (hflexibilities : x.flexibilities = flexibilities.map some)
      (htasks : x.tasks = tasks.map some) :
      Gives x (.ok (s.assemble (flexibilities.filterMap Except.toOption)
        (tasks.filterMap Except.toOption)))

/-- The fetch holds what its device has answered along `trace`. -/
structure Records (x : Fetch) (device : DeviceId) (trace : List FetchEvent) : Prop where
  summary : ∀ a, (device, .summary a) ∈ trace ↔ x.summary = some a
  flexibilities : Filled x.flexibilityIds x.flexibilities
    fun i id a => (device, .flexibility i id a) ∈ trace
  tasks : Filled x.taskIds x.tasks fun i id a => (device, .task i id a) ∈ trace

variable {x x' : Fetch} {device other : DeviceId} {trace : List FetchEvent} {answer : FetchAnswer}

theorem records_fresh (h : ∀ a, (device, a) ∉ trace) : fresh.Records device trace where
  summary a := iff_of_false (h _) (by simp [fresh])
  flexibilities := filled_open [] fun i id a => h _
  tasks := filled_open [] fun i id a => h _

/-- Nothing is over without an answer for the summary. -/
theorem Gives.exists_summary {result : Except TransportError ScheduleData} (h : x.Gives result) :
    ∃ a, x.summary = some a := by
  cases h with
  | failed hsummary => exact ⟨_, hsummary⟩
  | fetched hsummary => exact ⟨_, hsummary⟩

/-- With a summary there is a schedule. -/
theorem Gives.exists_data {result : Except TransportError ScheduleData} (h : x.Gives result)
    {s : ScheduleSummary} (hok : x.summary = some (.ok s)) : ∃ data, result = .ok data := by
  cases h with
  | failed hsummary =>
      rw [hok] at hsummary
      cases hsummary
  | fetched => exact ⟨_, rfl⟩

/-- Objects have ids when the summary has been answered. -/
theorem Records.exists_summary (h : x.Records device trace) (ids : ScheduleSummary → List Int)
    {i : Nat} {id : Int} (hid : (x.known.elim [] ids)[i]? = some id) :
    ∃ a, (device, .summary a) ∈ trace := by
  cases hknown : x.known with
  | none =>
      rw [hknown] at hid
      cases hid
  | some s =>
      obtain ⟨a, ha, -⟩ := Option.bind_eq_some_iff.1 hknown
      exact ⟨a, (h.summary a).2 ha⟩

/-- Nothing has been answered for an object before the summary was there. -/
theorem Records.none_of_unasked (h : x.Records device trace) (hasked : x.summary = none) :
    ∀ a, (device, a) ∉ trace := by
  have hnone : ¬ ∃ a, (device, .summary a) ∈ trace := by
    rintro ⟨a, ha⟩
    rw [h.summary, hasked] at ha
    cases ha
  intro a hmem
  cases a with
  | summary a => exact hnone ⟨a, hmem⟩
  | flexibility i id a =>
      exact hnone (h.exists_summary _ ((h.flexibilities.answers i id a).1 hmem).1)
  | task i id a =>
      exact hnone (h.exists_summary _ ((h.tasks.answers i id a).1 hmem).1)

/-- An answer is recorded with its device, -/
theorem Records.takes (h : x.Records device trace) (htakes : x.Takes answer x') :
    x'.Records device (trace ++ [(device, answer)]) := by
  cases htakes with
  | summary hasked a =>
      have hnone := h.none_of_unasked hasked
      refine ⟨fun b => ?_, filled_open _ fun i id b => ?_, filled_open _ fun i id b => ?_⟩
      · simp [hnone, summarized, eq_comm]
      · simp [hnone]
      · simp [hnone]
  | flexibility hid hopen a =>
      refine ⟨fun b => ?_, (h.flexibilities.set hid hopen a).congr fun i id b => ?_,
        h.tasks.congr fun i id b => ?_⟩
      · simp [h.summary]
      · simp
      · simp
  | task hdone hid hopen a =>
      refine ⟨fun b => ?_, h.flexibilities.congr fun i id b => ?_,
        (h.tasks.set hid hopen a).congr fun i id b => ?_⟩
      · simp [h.summary]
      · simp
      · simp

/-- and leaves the others alone. -/
theorem Records.takes_other (h : x.Records device trace) (hother : device ≠ other) :
    x.Records device (trace ++ [(other, answer)]) where
  summary a := by simp [h.summary, hother]
  flexibilities := h.flexibilities.congr fun i id a => by simp [hother]
  tasks := h.tasks.congr fun i id a => by simp [hother]

/-- A fetch is over or waits for the answer to a call, whatever that will be. -/
theorem Records.gives_or_takes (h : x.Records device trace) :
    (∃ result, x.Gives result) ∨ (∀ a, ∃ x', x.Takes (.summary a) x') ∨
      (∃ i id, ∀ a, ∃ x', x.Takes (.flexibility i id a) x') ∨
      ∃ i id, ∀ a, ∃ x', x.Takes (.task i id a) x' := by
  -- A call whose slot is open has an id.
  have hcall : ∀ {α : Type} {ids : List Int} {slots : AnswerSlots α}
      {answered : Nat → Int → Except TransportError α → Prop}, Filled ids slots answered →
      none ∈ slots → ∃ (i : Nat) (id : Int), ids[i]? = some id ∧ slots[i]? = some none := by
    intro α ids slots answered hfilled hmem
    obtain ⟨i, hi, hslot⟩ := List.mem_iff_getElem.1 hmem
    have hids : i < ids.length := hfilled.length ▸ hi
    exact ⟨i, ids[i], List.getElem?_eq_getElem hids, hslot ▸ List.getElem?_eq_getElem hi⟩
  cases hsummary : x.summary with
  | none => exact .inr (.inl fun a => ⟨_, .summary hsummary a⟩)
  | some answer =>
      cases answer with
      | error e => exact .inl ⟨_, .failed hsummary⟩
      | ok s =>
          by_cases hflexibilities : none ∈ x.flexibilities
          · obtain ⟨i, id, hid, hopen⟩ := hcall h.flexibilities hflexibilities
            exact .inr (.inr (.inl ⟨i, id, fun a => ⟨_, .flexibility hid hopen a⟩⟩))
          · by_cases htasks : none ∈ x.tasks
            · obtain ⟨i, id, hid, hopen⟩ := hcall h.tasks htasks
              exact .inr (.inr (.inr ⟨i, id, fun a => ⟨_, .task hflexibilities hid hopen a⟩⟩))
            · obtain ⟨flexibilities, hf⟩ := exists_answers hflexibilities
              obtain ⟨tasks, ht⟩ := exists_answers htasks
              exact .inl ⟨_, .fetched hsummary hf ht⟩

/-- What a device has answered is its schedule: with the fields of the summary and the objects
    whose calls have been answered with one, in the order of the summary. -/
structure Answered (s : ScheduleSummary) (id : DeviceId) (trace : List FetchEvent)
    (data : ScheduleData) : Prop where
  summary : (id, .summary (.ok s)) ∈ trace
  device : data.device = s.device
  start : data.start = s.start
  stop : data.stop = s.stop
  constraints : data.constraints = s.constraints
  flexibilities : Collected s.flexibilityIds
    (fun i k a => (id, .flexibility i k a) ∈ trace) data.flexibilities
  tasks : Collected s.taskIds (fun i k a => (id, .task i k a) ∈ trace) data.tasks

/-- Only what the device itself has answered matters. -/
theorem Answered.of_same {s : ScheduleSummary} {data : ScheduleData} {trace' : List FetchEvent}
    (h : Answered s device trace data)
    (hsame : ∀ a, (device, a) ∈ trace' ↔ (device, a) ∈ trace) : Answered s device trace' data where
  summary := (hsame _).2 h.summary
  device := h.device
  start := h.start
  stop := h.stop
  constraints := h.constraints
  flexibilities := by
    obtain ⟨answers, hfilled, hfound⟩ := h.flexibilities
    exact ⟨answers, hfilled.congr fun _ _ _ => hsame _, hfound⟩
  tasks := by
    obtain ⟨answers, hfilled, hfound⟩ := h.tasks
    exact ⟨answers, hfilled.congr fun _ _ _ => hsame _, hfound⟩

/-- A fetch that is over gives a schedule if and only if its device has answered with it. -/
theorem Records.gives_iff (h : x.Records device trace)
    {result : Except TransportError ScheduleData} (hgives : x.Gives result) (data : ScheduleData) :
    result = .ok data ↔ ∃ s, Answered s device trace data := by
  cases hgives with
  | failed hsummary =>
      refine iff_of_false (fun heq => by cases heq) ?_
      rintro ⟨s, hs⟩
      have hother := (h.summary _).1 hs.summary
      rw [hsummary] at hother
      cases hother
  | @fetched s flexibilities tasks hsummary hflexibilities htasks =>
      have hknown : x.known = some s := by rw [known, hsummary]; rfl
      have hf := h.flexibilities
      have ht := h.tasks
      rw [flexibilityIds, hknown, hflexibilities] at hf
      rw [taskIds, hknown, htasks] at ht
      have hown : Answered s device trace (s.assemble (flexibilities.filterMap Except.toOption)
          (tasks.filterMap Except.toOption)) :=
        ⟨(h.summary _).2 hsummary, rfl, rfl, rfl, rfl, ⟨_, hf, rfl⟩, ⟨_, ht, rfl⟩⟩
      rw [Except.ok.injEq]
      constructor
      · rintro rfl
        exact ⟨s, hown⟩
      · rintro ⟨s', hs'⟩
        obtain rfl : s = s' := by
          have hsame := (h.summary _).1 hs'.summary
          rw [hsummary] at hsame
          exact Except.ok.inj (Option.some.inj hsame)
        obtain ⟨d, start, stop, fetchedTasks, fetchedFlexibilities, constraints⟩ := data
        have hflex := hown.flexibilities.unique hs'.flexibilities
        have htask := hown.tasks.unique hs'.tasks
        simp only [ScheduleSummary.assemble] at hflex htask ⊢
        rw [hflex, htask, ← hs'.device, ← hs'.start, ← hs'.stop, ← hs'.constraints]

end Fetch

/-! ## Several devices -/

/-- Each of several devices has the schedule that it has replied. -/
theorem Schedules.get?_ofReplies_eq_some_iff :
    ∀ {d : DeviceId} {data : ScheduleData} {replies : List (DeviceId × Reply ScheduleData)},
      (replies.map (·.1)).Nodup →
      ((ofReplies replies).get? d = some data ↔
        ∃ reply, (d, reply) ∈ replies ∧ reply.answer = .ok data)
  | _, _, [], _ => by
      refine iff_of_false (fun h => by cases h) ?_
      rintro ⟨reply, hmem, -⟩
      exact absurd hmem List.not_mem_nil
  | d, data, (device, reply) :: rest, hdistinct => by
      obtain ⟨hnew, hrest⟩ := List.nodup_cons.1 hdistinct
      have ih : (ofReplies rest).get? d = some data ↔
          ∃ reply, (d, reply) ∈ rest ∧ reply.answer = .ok data :=
        get?_ofReplies_eq_some_iff hrest
      rw [StorageDevices.get?_ofReplies_cons]
      by_cases hd : d = device
      · -- Its reply is the only one.
        subst hd
        have hnone : (ofReplies rest).get? d = none := by
          cases hget : (ofReplies rest).get? d with
          | none => rfl
          | some other =>
              obtain ⟨reply', hmem, -⟩ := (get?_ofReplies_eq_some_iff hrest).1 hget
              exact absurd (List.mem_map_of_mem hmem) hnew
        rw [hnone, Option.none_or, if_pos rfl]
        constructor
        · intro hok
          refine ⟨reply, List.mem_cons_self, ?_⟩
          cases hanswer : reply.answer with
          | error e => rw [hanswer] at hok; cases hok
          | ok data' => rw [hanswer] at hok; cases hok; rfl
        · rintro ⟨reply', hmem, hok⟩
          rcases List.mem_cons.1 hmem with heq | hmem
          · rw [(Prod.mk.inj heq).2] at hok
            rw [hok]
            rfl
          · exact absurd (List.mem_map_of_mem hmem) hnew
      · rw [if_neg hd, Option.or_none, ih]
        simp [hd]

/-- The schedules of several devices while they are fetched: the devices that wait for a lane,
    the fetches that occupy one, and what has been collected, in the order in which the fetches
    were over. -/
structure Fanout where
  waiting : List DeviceId
  active : List (DeviceId × Fetch)
  collected : List (DeviceId × Reply ScheduleData)

namespace Fanout

/-- Nothing has been asked yet. -/
def begun (devices : List DeviceId) : Fanout := ⟨devices, [], []⟩

/-- All fetches are over and have been collected. -/
def Finished (f : Fanout) : Prop := f.waiting = [] ∧ f.active = []

/-- The schedules that have come in. -/
def schedules (f : Fanout) : Schedules := Schedules.ofReplies f.collected

/-- One step: the next device gets a lane, one that has a lane answers a call, or a fetch that is
    over is collected and its lane is free. -/
inductive Step (lanes : Nat) : Fanout → List FetchEvent → Fanout → Prop
  | begins {device : DeviceId} {waiting : List DeviceId} {active : List (DeviceId × Fetch)}
      {collected : List (DeviceId × Reply ScheduleData)} (hlane : active.length < max lanes 1) :
      Step lanes ⟨device :: waiting, active, collected⟩ []
        ⟨waiting, active ++ [(device, .fresh)], collected⟩
  | takes {device : DeviceId} {x x' : Fetch} {answer : FetchAnswer} {waiting : List DeviceId}
      {front back : List (DeviceId × Fetch)} {collected : List (DeviceId × Reply ScheduleData)}
      (htakes : x.Takes answer x') :
      Step lanes ⟨waiting, front ++ (device, x) :: back, collected⟩ [(device, answer)]
        ⟨waiting, front ++ (device, x') :: back, collected⟩
  | collects {device : DeviceId} {x : Fetch} {result : Except TransportError ScheduleData}
      {waiting : List DeviceId} {front back : List (DeviceId × Fetch)}
      {collected : List (DeviceId × Reply ScheduleData)} (hgives : x.Gives result) :
      Step lanes ⟨waiting, front ++ (device, x) :: back, collected⟩ []
        ⟨waiting, front ++ back, collected ++ [(device, .immediate result)]⟩

/-- What any answers in any order lead to, with those that have been given on the way. -/
inductive Reached (lanes : Nat) (devices : List DeviceId) : List FetchEvent → Fanout → Prop
  | begun : Reached lanes devices [] (begun devices)
  | step {trace events : List FetchEvent} {f f' : Fanout} (h : Reached lanes devices trace f)
      (hstep : Step lanes f events f') : Reached lanes devices (trace ++ events) f'

/-! ### What every step keeps -/

/-- Every device waits, is being fetched or has been collected. A fetch holds what its own device
    has answered, and it is still there to tell what has been collected. -/
structure Orderly (devices : List DeviceId) (trace : List FetchEvent) (f : Fanout) : Prop where
  devices : (f.waiting ++ (f.active.map (·.1) ++ f.collected.map (·.1))).Perm devices
  asked : ∀ d a, (d, a) ∈ trace → d ∈ f.active.map (·.1) ++ f.collected.map (·.1)
  active : ∀ d x, (d, x) ∈ f.active → x.Records d trace
  collected : ∀ d reply, (d, reply) ∈ f.collected →
    ∃ x : Fetch, x.Records d trace ∧ x.Gives reply.answer

section Orderly

variable {lanes : Nat} {devices : List DeviceId} {trace events : List FetchEvent} {f f' : Fanout}

theorem orderly_begun (devices : List DeviceId) : Orderly devices [] (begun devices) where
  devices := by simp [begun]
  asked d a h := absurd h List.not_mem_nil
  active d x h := absurd h List.not_mem_nil
  collected d reply h := absurd h List.not_mem_nil

variable {device : DeviceId} {x x' : Fetch} {answer : FetchAnswer} {waiting : List DeviceId}
  {active front back : List (DeviceId × Fetch)}
  {collected : List (DeviceId × Reply ScheduleData)}

/-- A device that waits has not answered anything. -/
theorem Orderly.silent (hdistinct : devices.Nodup)
    (h : Orderly devices trace ⟨device :: waiting, active, collected⟩) (a : FetchAnswer) :
    (device, a) ∉ trace := by
  intro hmem
  have hapart := h.devices.nodup_iff.2 hdistinct
  exact (List.nodup_cons.1 hapart).1 (List.mem_append_right _ (h.asked device a hmem))

theorem Orderly.begins (hdistinct : devices.Nodup)
    (h : Orderly devices trace ⟨device :: waiting, active, collected⟩) :
    Orderly devices trace ⟨waiting, active ++ [(device, .fresh)], collected⟩ := by
  refine ⟨?_, fun d a hmem => ?_, fun d x hmem => ?_, h.collected⟩
  · refine List.Perm.trans ?_ h.devices
    simp only [List.map_append, List.map_cons, List.map_nil, List.append_assoc,
      List.singleton_append]
    exact (List.perm_middle.append_left waiting).trans List.perm_middle
  · have hold := h.asked d a hmem
    simp only [List.map_append, List.mem_append] at hold ⊢
    exact hold.imp_left .inl
  · rcases List.mem_append.1 hmem with hold | hnew
    · exact h.active d x hold
    · obtain ⟨rfl, rfl⟩ := Prod.mk.inj (List.mem_singleton.1 hnew)
      exact Fetch.records_fresh (h.silent hdistinct)

/-- Another device that has been asked has another name. -/
theorem Orderly.ne_of_asked (hdistinct : devices.Nodup)
    (h : Orderly devices trace ⟨waiting, front ++ (device, x) :: back, collected⟩) {d : DeviceId}
    (hd : d ∈ front.map (·.1) ∨ d ∈ back.map (·.1) ∨ d ∈ collected.map (·.1)) : d ≠ device := by
  have hapart := h.devices.nodup_iff.2 hdistinct
  simp only [List.map_append, List.map_cons, List.append_assoc, List.cons_append] at hapart
  have hothers := List.nodup_middle.1 (List.nodup_append.1 hapart).2.1
  rintro rfl
  refine (List.nodup_cons.1 hothers).1 ?_
  simpa only [List.mem_append] using hd

/-- An answer is news of its own device only. -/
theorem Orderly.takes (hdistinct : devices.Nodup)
    (h : Orderly devices trace ⟨waiting, front ++ (device, x) :: back, collected⟩)
    (htakes : x.Takes answer x') :
    Orderly devices (trace ++ [(device, answer)])
      ⟨waiting, front ++ (device, x') :: back, collected⟩ := by
  have hnames : (front ++ (device, x') :: back).map (·.1)
      = (front ++ (device, x) :: back).map (·.1) := by simp
  refine ⟨hnames ▸ h.devices, fun d a hmem => ?_, fun d y hmem => ?_, fun d reply hmem => ?_⟩
  · rw [hnames]
    rcases List.mem_append.1 hmem with hold | hnew
    · exact h.asked d a hold
    · obtain ⟨rfl, rfl⟩ := Prod.mk.inj (List.mem_singleton.1 hnew)
      simp
  · rcases List.mem_append.1 hmem with hfront | hback
    · exact (h.active d y (List.mem_append_left _ hfront)).takes_other
        (h.ne_of_asked hdistinct (.inl (List.mem_map_of_mem hfront)))
    · rcases List.mem_cons.1 hback with heq | hback
      · obtain ⟨rfl, rfl⟩ := Prod.mk.inj heq
        exact (h.active d x (by simp)).takes htakes
      · have hy := h.active d y (List.mem_append_right _ (List.mem_cons_of_mem _ hback))
        exact hy.takes_other (h.ne_of_asked hdistinct (.inr (.inl (List.mem_map_of_mem hback))))
  · obtain ⟨y, hy, hgives⟩ := h.collected d reply hmem
    exact ⟨y, hy.takes_other (h.ne_of_asked hdistinct (.inr (.inr (List.mem_map_of_mem hmem)))),
      hgives⟩

theorem Orderly.collects {result : Except TransportError ScheduleData}
    (h : Orderly devices trace ⟨waiting, front ++ (device, x) :: back, collected⟩)
    (hgives : x.Gives result) :
    Orderly devices trace ⟨waiting, front ++ back, collected ++ [(device, .immediate result)]⟩ := by
  refine ⟨?_, fun d a hmem => ?_, fun d y hmem => ?_, fun d reply hmem => ?_⟩
  · refine List.Perm.trans ?_ h.devices
    simp only [List.map_append, List.map_cons, List.map_nil, List.append_assoc,
      List.cons_append]
    refine List.Perm.append_left waiting (List.Perm.append_left _ ?_)
    exact (List.perm_append_comm.append_left _).trans List.perm_middle
  · have hold := h.asked d a hmem
    simp only [List.map_append, List.map_cons, List.map_nil, List.mem_append, List.mem_cons,
      List.not_mem_nil, or_false] at hold ⊢
    tauto
  · refine h.active d y ?_
    rcases List.mem_append.1 hmem with hfront | hback
    · exact List.mem_append_left _ hfront
    · exact List.mem_append_right _ (List.mem_cons_of_mem _ hback)
  · rcases List.mem_append.1 hmem with hold | hnew
    · exact h.collected d reply hold
    · obtain ⟨rfl, rfl⟩ := Prod.mk.inj (List.mem_singleton.1 hnew)
      exact ⟨x, h.active d x (by simp), hgives⟩

theorem Orderly.step (hdistinct : devices.Nodup) (h : Orderly devices trace f)
    (hstep : Step lanes f events f') : Orderly devices (trace ++ events) f' := by
  cases hstep with
  | begins hlane =>
      rw [List.append_nil]
      exact h.begins hdistinct
  | takes htakes => exact h.takes hdistinct htakes
  | collects hgives =>
      rw [List.append_nil]
      exact h.collects hgives

theorem Reached.orderly (hdistinct : devices.Nodup) (h : Reached lanes devices trace f) :
    Orderly devices trace f := by
  induction h with
  | begun => exact orderly_begun devices
  | step _ hstep ih => exact ih.step hdistinct hstep

/-! ### What comes of it -/

theorem Orderly.mem_collected (h : Orderly devices trace f) (hfinished : f.Finished)
    {d : DeviceId} : d ∈ f.collected.map (·.1) ↔ d ∈ devices := by
  have hperm := h.devices
  rw [hfinished.1, hfinished.2] at hperm
  exact hperm.mem_iff

theorem Orderly.nodup_collected (hdistinct : devices.Nodup) (h : Orderly devices trace f) :
    (f.collected.map (·.1)).Nodup :=
  (List.nodup_append.1 (List.nodup_append.1 (h.devices.nodup_iff.2 hdistinct)).2.1).2.1

/-- The fetch of every device has been collected when it was over. -/
theorem Orderly.exists_fetch (h : Orderly devices trace f) (hfinished : f.Finished) {d : DeviceId}
    (hd : d ∈ devices) :
    ∃ reply, (d, reply) ∈ f.collected ∧ ∃ x : Fetch, x.Records d trace ∧ x.Gives reply.answer := by
  obtain ⟨⟨_, reply⟩, hmem, rfl⟩ := List.mem_map.1 ((h.mem_collected hfinished).2 hd)
  exact ⟨reply, hmem, h.collected _ reply hmem⟩

/-- Every device has been asked for its summary, and no other one. -/
theorem Orderly.mem_devices_iff (h : Orderly devices trace f) (hfinished : f.Finished)
    {d : DeviceId} : d ∈ devices ↔ ∃ a, (d, .summary a) ∈ trace := by
  constructor
  · intro hd
    obtain ⟨reply, -, x, hrecords, hgives⟩ := h.exists_fetch hfinished hd
    obtain ⟨a, hsummary⟩ := hgives.exists_summary
    exact ⟨a, (hrecords.summary a).2 hsummary⟩
  · rintro ⟨a, hmem⟩
    have hasked := h.asked d _ hmem
    rw [← h.mem_collected hfinished]
    rwa [hfinished.2] at hasked

/-- The schedule of a device is what the device has answered. -/
theorem Orderly.get?_schedules (hdistinct : devices.Nodup) (h : Orderly devices trace f)
    (hfinished : f.Finished) (d : DeviceId) (data : ScheduleData) :
    f.schedules.get? d = some data ↔ ∃ s, Fetch.Answered s d trace data := by
  rw [schedules, Schedules.get?_ofReplies_eq_some_iff (h.nodup_collected hdistinct)]
  constructor
  · rintro ⟨reply, hmem, hok⟩
    obtain ⟨x, hrecords, hgives⟩ := h.collected d reply hmem
    exact (hrecords.gives_iff hgives data).1 hok
  · rintro ⟨s, hs⟩
    have hd : d ∈ devices := (h.mem_devices_iff hfinished).2 ⟨_, hs.summary⟩
    obtain ⟨reply, hmem, x, hrecords, hgives⟩ := h.exists_fetch hfinished hd
    exact ⟨reply, hmem, (hrecords.gives_iff hgives data).2 ⟨s, hs⟩⟩

/-- There is a schedule of every device whose summary has been answered with one, and of no other
    device. -/
theorem Orderly.mem_keys_schedules (hdistinct : devices.Nodup) (h : Orderly devices trace f)
    (hfinished : f.Finished) (d : DeviceId) :
    d ∈ f.schedules.keys ↔ ∃ s, (d, .summary (.ok s)) ∈ trace := by
  rw [OrderedMap.mem_keys_iff_get?]
  constructor
  · rintro ⟨data, hget⟩
    obtain ⟨s, hs⟩ := (h.get?_schedules hdistinct hfinished d data).1 hget
    exact ⟨s, hs.summary⟩
  · rintro ⟨s, hs⟩
    have hd : d ∈ devices := (h.mem_devices_iff hfinished).2 ⟨_, hs⟩
    obtain ⟨reply, hmem, x, hrecords, hgives⟩ := h.exists_fetch hfinished hd
    obtain ⟨data, hdata⟩ := hgives.exists_data ((hrecords.summary _).1 hs)
    refine ⟨data, ?_⟩
    rw [schedules, Schedules.get?_ofReplies_eq_some_iff (h.nodup_collected hdistinct)]
    exact ⟨reply, hmem, hdata⟩

/-! ### It comes to an end -/

/-- There is a step before the end, and whatever is answered to a call is taken. -/
theorem Orderly.steps (h : Orderly devices trace f) (hunfinished : ¬ f.Finished) (lanes : Nat) :
    (∃ f', Step lanes f [] f') ∨ ∃ d, (∀ a, ∃ f', Step lanes f [(d, .summary a)] f') ∨
      (∃ i id, ∀ a, ∃ f', Step lanes f [(d, .flexibility i id a)] f') ∨
      ∃ i id, ∀ a, ∃ f', Step lanes f [(d, .task i id a)] f' := by
  obtain ⟨waiting, active, collected⟩ := f
  cases active with
  | nil =>
      cases waiting with
      | nil => exact absurd ⟨rfl, rfl⟩ hunfinished
      | cons device waiting =>
          exact .inl ⟨_, .begins (Nat.lt_of_lt_of_le Nat.one_pos (Nat.le_max_right lanes 1))⟩
  | cons entry back =>
      obtain ⟨d, x⟩ := entry
      have htakes : ∀ {answer : FetchAnswer}, (∃ x', x.Takes answer x') →
          ∃ f', Step lanes ⟨waiting, [] ++ (d, x) :: back, collected⟩ [(d, answer)] f' := by
        rintro answer ⟨x', htakes⟩
        exact ⟨_, .takes htakes⟩
      have hcollects : ∀ {result : Except TransportError ScheduleData}, x.Gives result →
          ∃ f', Step lanes ⟨waiting, [] ++ (d, x) :: back, collected⟩ [] f' :=
        fun hgives => ⟨_, .collects hgives⟩
      rcases (h.active d x List.mem_cons_self).gives_or_takes with
        ⟨result, hgives⟩ | hsummary | ⟨i, id, hflexibility⟩ | ⟨i, id, htask⟩
      · exact .inl (hcollects hgives)
      · exact .inr ⟨d, .inl fun a => htakes (hsummary a)⟩
      · exact .inr ⟨d, .inr (.inl ⟨i, id, fun a => htakes (hflexibility a)⟩)⟩
      · exact .inr ⟨d, .inr (.inr ⟨i, id, fun a => htakes (htask a)⟩)⟩

end Orderly

/-- Steps that are left until all summaries have been answered. -/
def unasked (f : Fanout) : Nat :=
  2 * f.waiting.length + f.active.countP (·.2.summary.isNone)

/-- Calls for objects that have not been answered, and fetches that have not been collected. -/
def openCalls (f : Fanout) : Nat :=
  (f.active.map fun e =>
    e.2.flexibilities.countP (·.isNone) + e.2.tasks.countP (·.isNone) + 1).sum

theorem countP_isNone_set {α : Type} {slots : AnswerSlots α} {i : Nat}
    (hopen : slots[i]? = some none) (a : Except TransportError α) :
    (slots.set i (some a)).countP (·.isNone) < slots.countP (·.isNone) := by
  obtain ⟨hlt, hnone⟩ := List.getElem?_eq_some_iff.1 hopen
  have hpos : 0 < slots.countP (·.isNone) :=
    List.countP_pos_iff.2 ⟨none, List.mem_of_getElem? hopen, rfl⟩
  rw [List.countP_set hlt, hnone]
  simp only [Option.isNone_none, if_true, Option.isNone_some, Bool.false_eq_true, if_false]
  omega

/-- Every step brings the end nearer: a summary may open any number of calls, but there is one
    summary for each device. -/
theorem Step.nearer {lanes : Nat} {events : List FetchEvent} {f f' : Fanout}
    (h : Step lanes f events f') :
    f'.unasked < f.unasked ∨ (f'.unasked = f.unasked ∧ f'.openCalls < f.openCalls) := by
  cases h with
  | begins hlane =>
      left
      simp only [unasked, List.length_cons, List.countP_append, List.countP_cons,
        List.countP_nil, Fetch.fresh, Option.isNone_none, if_true]
      omega
  | takes htakes =>
      simp only [unasked, openCalls, List.countP_append, List.countP_cons, List.map_append,
        List.map_cons, List.sum_append, List.sum_cons]
      cases htakes with
      | summary hasked a =>
          left
          simp [hasked, Fetch.summarized]
      | flexibility hid hopen a =>
          have := countP_isNone_set hopen a
          right
          refine ⟨rfl, ?_⟩
          dsimp only
          omega
      | task hdone hid hopen a =>
          have := countP_isNone_set hopen a
          right
          refine ⟨rfl, ?_⟩
          dsimp only
          omega
  | collects hgives =>
      right
      simp only [unasked, openCalls, List.countP_append, List.countP_cons, List.map_append,
        List.map_cons, List.sum_append, List.sum_cons]
      obtain ⟨a, hsummary⟩ := hgives.exists_summary
      exact ⟨by simp [hsummary], by omega⟩

end Fanout

end SiteDispatch
