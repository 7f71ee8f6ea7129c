/-
  SiteDispatch.Proofs.Device.Restart

  The schedule of a device survives a restart at any point.

  A request either saves the state it leads to, or the file is left behind with an older one.
  The latter happens only when a restart loses nothing by it: a repair that repairs nothing
  still brings a running task into its shortest form, and a pass of maintenance in which
  no task ends still forgets setpoints of the past.
-/

import SiteDispatch.Calendar.ZoneTable
import SiteDispatch.Device.Store
import SiteDispatch.Proofs.Device.Prune
import SiteDispatch.Proofs.Device.Repair
import SiteDispatch.Proofs.Profile.Compress
import SiteDispatch.Proofs.Snapshot.Newest

namespace SiteDispatch

open PowerProfile

/-! ## Schedules that mean the same -/

/-- The same task, but for the entries of its profile that change no power. -/
def SameTask (t u : Task) : Prop :=
  ∃ power, u = { t with power := power } ∧
    ∀ offset, power.floorValue? offset = t.power.floorValue? offset

/-- Two schedules differ in nothing but the way profiles are written down and in setpoints that
    are over at `now`. -/
structure SameSchedule (now : Int) (s s' : DeviceState) : Prop where
  idCounter : s'.idCounter = s.idCounter
  targetSoc : s'.targetSoc = s.targetSoc
  targetSocTime : s'.targetSocTime = s.targetSocTime
  flexibilities : s'.flexibilities = s.flexibilities
  tasks : ∀ id, Option.Rel SameTask (s.tasks.get? id) (s'.tasks.get? id)
  powerAt : ∀ t, now ≤ t → s'.powerAt t = s.powerAt t

theorem SameTask.refl (t : Task) : SameTask t t := ⟨t.power, rfl, fun _ => rfl⟩

theorem SameTask.trans {t u v : Task} (h : SameTask t u) (h' : SameTask u v) : SameTask t v := by
  obtain ⟨power, rfl, hpower⟩ := h
  obtain ⟨power', rfl, hpower'⟩ := h'
  exact ⟨power', rfl, fun offset => (hpower' offset).trans (hpower offset)⟩

theorem SameTask.compress (t : Task) : SameTask t t.compress :=
  ⟨_, rfl, fun offset => floorValue?_compress t.power t.runningTime offset⟩

namespace SameSchedule

variable {now : Int} {s s' s'' : DeviceState}

theorem refl (now : Int) (s : DeviceState) : SameSchedule now s s where
  idCounter := rfl
  targetSoc := rfl
  targetSocTime := rfl
  flexibilities := rfl
  tasks id := by
    cases s.tasks.get? id with
    | none => exact .none
    | some t => exact .some (SameTask.refl t)
  powerAt _ _ := rfl

theorem trans (h : SameSchedule now s s') (h' : SameSchedule now s' s'') :
    SameSchedule now s s'' where
  idCounter := h'.idCounter.trans h.idCounter
  targetSoc := h'.targetSoc.trans h.targetSoc
  targetSocTime := h'.targetSocTime.trans h.targetSocTime
  flexibilities := h'.flexibilities.trans h.flexibilities
  tasks id := by
    have hfirst := h.tasks id
    have hsecond := h'.tasks id
    generalize s.tasks.get? id = t at hfirst ⊢
    generalize s'.tasks.get? id = u at hfirst hsecond
    generalize s''.tasks.get? id = v at hsecond ⊢
    cases hfirst with
    | none => exact hsecond
    | some hfirst =>
        cases hsecond with
        | some hsecond => exact .some (hfirst.trans hsecond)
  powerAt t ht := (h'.powerAt t ht).trans (h.powerAt t ht)

/-- What is over stays over. -/
theorem mono (h : SameSchedule now s s') {later : Int} (hlater : now ≤ later) :
    SameSchedule later s s' :=
  ⟨h.idCounter, h.targetSoc, h.targetSocTime, h.flexibilities, h.tasks,
    fun t ht => h.powerAt t (by omega)⟩

end SameSchedule

/-! ## Changes that need not be saved -/

namespace DeviceState

section Repair

variable {low high time : Int} {later : List Int} {r : Repair}

/-- After the epoch a repair that answers 0 has repaired nothing. -/
theorem repairAlong_eq_of_first_eq_zero (hinstants : ∀ t ∈ time :: later, t ≠ 0)
    (hnone : (repairAlong low high time later r).first = 0) :
    (repairAlong low high time later r).timeline = r.timeline ∧
      (repairAlong low high time later r).tasks = r.tasks := by
  induction later generalizing time r with
  | nil => exact ⟨rfl, rfl⟩
  | cons next later ih =>
      obtain ⟨htime, hrest⟩ := List.forall_mem_cons.1 hinstants
      rw [repairAlong] at hnone ⊢
      split
      · -- A stretch set to rest here would have been answered.
        rename_i hleaves
        rw [if_pos hleaves] at hnone
        have hfirst : (if r.first = 0 then time else r.first) ≠ 0 := by
          split
          · exact htime
          · assumption
        rw [first_repairAlong_of_ne_zero hfirst] at hnone
        exact absurd hnone hfirst
      · rename_i hkeeps
        rw [if_neg hkeeps] at hnone
        exact ih hrest hnone

end Repair

variable {s : DeviceState} {now : Int}

/-- A task in its shortest form is the same task, whichever it is. -/
theorem sameTask_modify_compress (tasks : OrderedMap Int Task) (id k : Int) :
    Option.Rel SameTask (tasks.get? k) ((tasks.modify id Task.compress).get? k) := by
  rw [OrderedMap.get?_modify]
  cases tasks.get? k with
  | none => split <;> exact .none
  | some t =>
      split
      · exact .some (SameTask.compress t)
      · exact .some (SameTask.refl t)

/-- A repair that repairs nothing does no more than shorten a profile. -/
theorem sameSchedule_repair {stored low high : Int} (hnow : 0 < now)
    (hnone : (s.repair now stored low high).1 = 0) :
    SameSchedule now s (s.repair now stored low high).2 := by
  have hinstants : ∀ t ∈ now :: s.scheduledPower.keys.filter (fun k => now < k), t ≠ 0 := by
    intro t ht
    rcases List.mem_cons.1 ht with rfl | ht
    · omega
    · have := of_decide_eq_true (List.mem_filter.1 ht).2
      omega
  obtain ⟨htimeline, htasks⟩ := repairAlong_eq_of_first_eq_zero hinstants hnone
  refine ⟨rfl, rfl, rfl, rfl, fun id => ?_, fun t _ => ?_⟩
  · simp only [repair, htasks]
    split
    · exact (SameSchedule.refl now s).tasks id
    · exact sameTask_modify_compress s.tasks _ id
  · simp only [repair, DeviceState.powerAt, htimeline]

/-- If no task has ended, setpoints of the past are all that is forgotten. -/
theorem Holds.sameSchedule_prune (h : s.Holds Linked) (hnone : (s.prune now).1 = 0) :
    SameSchedule now s (s.prune now).2 := by
  have hexpired : s.tasks.values.filter (fun t => t.stop < now) = [] :=
    List.length_eq_zero_iff.1 hnone
  refine ⟨rfl, rfl, rfl, ?_, fun id => ?_, fun t ht => powerAt_prune ht⟩
  · apply OrderedMap.ext_get?
    intro k
    simp only [DeviceState.prune, hexpired, List.foldl_nil, OrderedMap.get?_filter]
    cases hf : s.flexibilities.get? k with
    | none => rfl
    | some f =>
        obtain ⟨t, -, hlinked⟩ := h.paired.of_flexibility hf
        simp [hlinked.not_free]
  · show Option.Rel SameTask (s.tasks.get? id) ((List.foldl _ s.tasks _).get? id)
    rw [hexpired]
    exact (SameSchedule.refl now s).tasks id

end DeviceState

/-! ## Requests -/

/-- What a device is asked for, or does by itself, with what it reads from its battery. -/
inductive StoreRequest
  | getSchedule (charge : ChargeReading) (start stop : Int)
  | schedule (id startingTime : Int) (power : PowerProfile)
  | adapt (id : Int) (update : PowerProfile)
  | unschedule (id : Int)
  | repair (stored low high : Int)
  | setTargetSoc (charge : ChargeReading) (soc time : Int)
  | maintain (charge : ChargeReading)

namespace DeviceStore

open DeviceState (Holds Linked linkedInvariant)

/-- The store after an answer. An error leaves it as it was, but there is none after a halt. -/
def after (s : DeviceStore) : Except StoreError DeviceStore → Except Halt DeviceStore
  | .ok s' => .ok s'
  | .error (.halted halt) => .error halt
  | .error _ => .ok s

/-- The store after a request at `now`. -/
def perform (s : DeviceStore) (now : Int) : StoreRequest → Except Halt DeviceStore
  | .getSchedule charge start stop =>
    s.after do return (← s.getSchedule charge start stop now).2
  | .schedule id startingTime power => .ok (s.schedule id startingTime power now).2
  | .adapt id update => .ok (s.adapt id update).2
  | .unschedule id => .ok (s.unschedule id now).2
  | .repair stored low high => .ok (s.repair stored low high now).2
  | .setTargetSoc charge soc time => s.after (s.setTargetSoc charge soc time now)
  | .maintain charge => s.after do return (← s.maintain charge now).2

/-- A schedule that is answered is saved. -/
theorem perform_getSchedule {s : DeviceStore} {state : DeviceState} {charge : ChargeReading}
    {soc : Float} {wattHours start stop now : Int} {summary : ScheduleSummary}
    (hstored : s.stored charge = .ok (soc, wattHours))
    (hget : s.state.getSchedule s.config.device start stop now wattHours s.zone s.config
      = .ok (summary, state)) :
    s.perform now (.getSchedule charge start stop) = .ok (s.save state) := by
  have hanswer : s.getSchedule charge start stop now = .ok (summary, s.save state) :=
    bind_eq_ok_iff.2 ⟨_, hstored, bind_eq_ok_iff.2 ⟨_, hget, rfl⟩⟩
  simp only [perform, hanswer]
  rfl

/-- What requests lead to, by `now`, on a medium that takes every write and that had no snapshot
    at first. Time is after the epoch and does not go back. -/
inductive Run (config : DeviceConfig) (zone : Zone) : Int → DeviceStore → Prop
  | opened {now : Int} (hnow : 0 < now) :
      Run config zone now (restore config zone (SnapshotFile.found none) true)
  | step {now now' : Int} {s s' : DeviceStore} {request : StoreRequest} :
      Run config zone now s → now ≤ now' → s.perform now' request = .ok s' →
      Run config zone now' s'

/-! ## What a request leaves in the file -/

/-- The store after a request whose state has been saved, or does not have to be. -/
inductive Settled (now : Int) (s : DeviceStore) : DeviceStore → Prop
  | saved {state : DeviceState} (h : state.Holds Linked) : Settled now s (s.save state)
  | kept {state : DeviceState} (h : state.Holds Linked)
      (hsame : SameSchedule now s.state state) : Settled now s { s with state := state }

section Settled

variable {s s' : DeviceStore} {now : Int}

/-- A request that is refused changes nothing. -/
theorem Settled.refused (h : s.state.Holds Linked) : Settled now s s :=
  .kept h (SameSchedule.refl now s.state)

theorem Settled.settle {change : SchedulingResult × DeviceState} (h : s.state.Holds Linked)
    (hchange : change.2.Holds Linked) : Settled now s (s.settle change).2 := by
  rw [DeviceStore.settle]
  split
  · exact .saved hchange
  · exact .refused h

/-- An answer settles if it does so when it is no error. -/
theorem Settled.after (h : s.state.Holds Linked) {answer : Except StoreError DeviceStore}
    (hafter : s.after answer = .ok s') (hanswer : answer = .ok s' → Settled now s s') :
    Settled now s s' := by
  cases answer with
  | ok s'' => exact hanswer (congrArg Except.ok (Except.ok.inj hafter))
  | error reason =>
      cases reason with
      | halted halt => cases hafter
      | rangeTooLong start stop => exact Except.ok.inj hafter ▸ Settled.refused h
      | emptyRange start stop => exact Except.ok.inj hafter ▸ Settled.refused h
      | storage text => exact Except.ok.inj hafter ▸ Settled.refused h

theorem settled_getSchedule (h : s.state.Holds Linked) {charge : ChargeReading}
    {start stop : Int} {summary : ScheduleSummary}
    (hget : s.getSchedule charge start stop now = .ok (summary, s')) : Settled now s s' := by
  obtain ⟨⟨_, wattHours⟩, -, hget⟩ := bind_eq_ok_iff.1 hget
  obtain ⟨⟨_, state⟩, hstate, heq⟩ := bind_eq_ok_iff.1 hget
  cases heq
  exact .saved (h.getSchedule (linkedInvariant fun _ => True) trivial hstate)

theorem settled_repair (h : s.state.Holds Linked) (hnow : 0 < now) (stored low high : Int) :
    Settled now s (s.repair stored low high now).2 := by
  have hholds := h.repair (linkedInvariant fun _ => True) now stored low high
  simp only [DeviceStore.repair]
  split
  · rename_i hnone
    exact .kept hholds (DeviceState.sameSchedule_repair hnow hnone)
  · exact .saved hholds

theorem settled_setTargetSoc (h : s.state.Holds Linked) {charge : ChargeReading} {soc time : Int}
    (hset : s.setTargetSoc charge soc time now = .ok s') : Settled now s s' := by
  obtain ⟨⟨current, _⟩, -, hset⟩ := bind_eq_ok_iff.1 hset
  cases htarget : s.state.applyTargetSoc soc time now current s.config with
  | error halt =>
      simp only [htarget] at hset
      cases hset
  | ok state =>
      simp only [htarget] at hset
      cases hset
      exact .saved (h.applyTargetSoc htarget)

theorem settled_maintain (h : s.state.Holds Linked) (hnow : 0 < now) {charge : ChargeReading}
    {events : List StoreEvent} (hmaintain : s.maintain charge now = .ok (events, s')) :
    Settled now s s' := by
  obtain ⟨⟨current, wattHours⟩, -, hmaintain⟩ := bind_eq_ok_iff.1 hmaintain
  have hpruned := h.prune (linkedInvariant fun _ => True) now
  simp only at hmaintain
  split at hmaintain
  · -- An active charge target is applied anew, and that is saved.
    split at hmaintain
    · cases hmaintain
    · rename_i state htarget
      cases hmaintain
      exact .saved (hpruned.applyTargetSoc htarget)
  · have hrepaired := hpruned.repair (linkedInvariant fun _ => True) now wattHours
      s.config.minEnergy s.config.maxEnergy
    cases hmaintain
    split
    · rename_i hnone
      exact .kept hrepaired ((h.sameSchedule_prune hnone.1).trans
        (DeviceState.sameSchedule_repair hnow hnone.2))
    · exact .saved hrepaired

/-- One request, whichever it is. -/
theorem settled_perform (h : s.state.Holds Linked) (hnow : 0 < now) {request : StoreRequest}
    (hperform : s.perform now request = .ok s') : Settled now s s' := by
  have hinv := linkedInvariant fun _ => True
  cases request with
  | getSchedule charge start stop =>
      refine Settled.after h hperform fun hanswer => ?_
      obtain ⟨⟨summary, s''⟩, hget, heq⟩ := bind_eq_ok_iff.1 hanswer
      cases heq
      exact settled_getSchedule h hget
  | schedule id startingTime power =>
      exact Except.ok.inj hperform ▸ Settled.settle h (h.schedule hinv trivial)
  | adapt id update => exact Except.ok.inj hperform ▸ Settled.settle h (h.adapt hinv id update)
  | unschedule id => exact Except.ok.inj hperform ▸ Settled.settle h (h.unschedule hinv id now)
  | repair stored low high =>
      exact Except.ok.inj hperform ▸ settled_repair h hnow stored low high
  | setTargetSoc charge soc time => exact Settled.after h hperform (settled_setTargetSoc h)
  | maintain charge =>
      refine Settled.after h hperform fun hanswer => ?_
      obtain ⟨⟨events, s''⟩, hmaintain, heq⟩ := bind_eq_ok_iff.1 hanswer
      cases heq
      exact settled_maintain h hnow hmaintain

end Settled

/-! ## Runs -/

/-- Loading the file yields the schedule, and leaves the file where it is. -/
def Recovers (now : Int) (s : DeviceStore) : Prop :=
  ∃ kept status, s.file.load id DeviceState.fresh = (kept, status, s.file) ∧ status ≠ .corrupt ∧
    SameSchedule now kept s.state

/-- What every request keeps: the file holds the schedule, and the next snapshot that is taken
    will be the newest. -/
structure Recoverable (now : Int) (s : DeviceStore) : Prop where
  linked : s.state.Holds Linked
  writable : s.writable = true
  counted : s.file.written ≤ s.file.staged
  recovers : s.Recovers now

section Recoverable

variable {config : DeviceConfig} {zone : Zone} {s s' : DeviceStore} {now : Int}

theorem recoverable_opened (config : DeviceConfig) (zone : Zone) (now : Int) :
    Recoverable now (restore config zone (SnapshotFile.found none) true) where
  linked := ⟨Int.le_refl 0, DeviceState.Paired.empty⟩
  writable := rfl
  counted := Nat.le_refl 0
  recovers := ⟨DeviceState.fresh, .missing, rfl, nofun, SameSchedule.refl now DeviceState.fresh⟩

/-- On a medium that takes the write, the state that is saved is the one in the file. -/
theorem file_save (hwritable : s.writable = true) (hcounted : s.file.written ≤ s.file.staged)
    (state : DeviceState) : (s.save state).file
      = ⟨s.file.staged + 1, s.file.staged + 1, some (some state), s.file.aside⟩ := by
  rw [save, hwritable]
  exact SnapshotFile.save_eq hcounted (some state)

theorem Recoverable.mono (h : Recoverable now s) {later : Int} (hlater : now ≤ later) :
    Recoverable later s := by
  obtain ⟨kept, status, hload, hstatus, hsame⟩ := h.recovers
  exact ⟨h.linked, h.writable, h.counted, kept, status, hload, hstatus, hsame.mono hlater⟩

theorem Recoverable.settled (h : Recoverable now s) (hsettled : Settled now s s') :
    Recoverable now s' := by
  cases hsettled with
  | @saved state hholds =>
      have hfile := file_save h.writable h.counted state
      refine ⟨hholds, h.writable, ?_, state, .restored, ?_, nofun, SameSchedule.refl now state⟩
      · rw [hfile]
      · rw [hfile]
        rfl
  | kept hholds hsame =>
      obtain ⟨kept, status, hload, hstatus, hkept⟩ := h.recovers
      exact ⟨hholds, h.writable, h.counted, kept, status, hload, hstatus, hkept.trans hsame⟩

/-- Every request of a run leaves the store recoverable. -/
theorem Run.recoverable (h : Run config zone now s) : 0 < now ∧ Recoverable now s := by
  induction h with
  | opened hnow => exact ⟨hnow, recoverable_opened config zone _⟩
  | step _ hlater hperform ih =>
      obtain ⟨hnow, hrecoverable⟩ := ih
      have hlate := hrecoverable.mono hlater
      have hnow' := Int.lt_of_lt_of_le hnow hlater
      exact ⟨hnow', hlate.settled (settled_perform hlate.linked hnow' hperform)⟩

/-- A restart takes over what is loaded from the file. -/
theorem Recovers.restart (h : s.Recovers now) : SameSchedule now s.restart.state s.state := by
  obtain ⟨kept, status, hload, -, hsame⟩ := h
  have hrestart : s.restart.state = kept := by
    show (s.file.reopened.load id DeviceState.fresh).1 = kept
    have hstate : (s.file.load id DeviceState.fresh).1 = kept := by rw [hload]
    rw [← hstate, SnapshotFile.load, SnapshotFile.load, SnapshotFile.reopened]
    cases s.file.content with
    | none => rfl
    | some content => cases content <;> rfl
  rwa [hrestart]

end Recoverable

/-- After every request the file can be loaded and holds the schedule in memory: ids, charge
    target and flexibilities as they are, the tasks with their power, and the setpoints that are
    not yet over. The store that comes up on the file goes on with that. -/
theorem schedule_survives_restart {config : DeviceConfig} {zone : Zone} {now : Int}
    {s : DeviceStore} (h : Run config zone now s) :
    s.Recovers now ∧ SameSchedule now s.restart.state s.state :=
  ⟨h.recoverable.2.recovers, h.recoverable.2.recovers.restart⟩

/-- A battery at home, reserving a tenth of its capacity at either end. -/
def homeBattery : DeviceConfig := ⟨⟨1⟩, 6000, 10, 90, 2000, 2000, 100⟩

/-- A first request offers a day and saves it. A repair an hour later finds nothing to repair and
    leaves the file alone; a restart still finds the day. -/
theorem schedule_survives_restart_firstDay :
    ∃ s s', Run homeBattery Zone.utc 3600 s ∧
      s.perform 7200 (.repair 3000 600 5400) = .ok s' ∧ s'.state.tasks.keys = [0] ∧
      s'.file = s.file ∧ s'.Recovers 7200 ∧ SameSchedule 7200 s'.restart.state s'.state := by
  -- Whatever the battery holds, one day is offered and rests.
  have hoffer : ∀ wattHours, ∃ summary state,
      DeviceState.fresh.getSchedule ⟨1⟩ 3600 7200 3600 wattHours Zone.utc homeBattery
          = .ok (summary, state) ∧
        (state.repair 7200 3000 600 5400).1 = 0 ∧
        (state.repair 7200 3000 600 5400).2.tasks.keys = [0] := fun _ => ⟨_, _, rfl, rfl, rfl⟩
  obtain ⟨summary, state, hget, hnone, hkeys⟩ := hoffer (Battery.storedEnergy 50.0 6000)
  have hopened : Run homeBattery Zone.utc 3600
      (restore homeBattery Zone.utc (SnapshotFile.found none) true) := .opened (by decide)
  generalize hfirst : restore homeBattery Zone.utc (SnapshotFile.found none) true = first at hopened
  have hday : first.perform 3600 (.getSchedule (.ok 50.0) 3600 7200) = .ok (first.save state) := by
    subst hfirst
    exact perform_getSchedule rfl hget
  have hrun := hopened.step (Int.le_refl 3600) hday
  have hrepair : (first.save state).perform 7200 (.repair 3000 600 5400)
      = .ok { first.save state with state := (state.repair 7200 3000 600 5400).2 } :=
    congrArg Except.ok (if_pos hnone)
  exact ⟨_, _, hrun, hrepair, hkeys, rfl,
    schedule_survives_restart (hrun.step (by decide) hrepair)⟩

end DeviceStore
end SiteDispatch
