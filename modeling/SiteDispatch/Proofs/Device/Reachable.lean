/-
  SiteDispatch.Proofs.Device.Reachable

  What holds of a device's schedule whatever it has been asked to do.

  A device keeps its flexibilities and tasks in pairs under a common id. Every
  operation acts on such a pair in one of a few ways: a day is offered, corridors
  are replaced, a profile is accepted, a task is returned to rest or repaired.
  `PairInvariant` lists them; a property of pairs that survives each of them holds
  in every reachable state.
-/

import SiteDispatch.Device.Upkeep
import SiteDispatch.Proofs.Device.Commit
import SiteDispatch.Proofs.Device.Offer

namespace SiteDispatch

/-! ## Runs -/

/-- What can be done to the schedule of a device. -/
inductive DeviceOperation
  | addDay (start stop stored : Int) (c : DeviceConfig)
  | getSchedule (device : DeviceId) (start stop now stored : Int) (zone : Zone) (c : DeviceConfig)
  | schedule (id startingTime : Int) (power : PowerProfile) (now : Int)
  | adapt (id : Int) (update : PowerProfile)
  | unschedule (id now : Int)
  | repair (now stored low high : Int)
  | prune (now : Int)
  | applyTargetSoc (soc time now : Int) (current : Float) (c : DeviceConfig)

/-- The state an operation leaves behind; one without an answer changes nothing. -/
def DeviceOperation.perform (s : DeviceState) : DeviceOperation → DeviceState
  | addDay start stop stored c => (s.addDay start stop stored c).2
  | getSchedule device start stop now stored zone c =>
    match s.getSchedule device start stop now stored zone c with
    | .ok (_, s') => s'
    | .error _ => s
  | schedule id startingTime power now => (s.schedule id startingTime power now).2
  | adapt id update => (s.adapt id update).2
  | unschedule id now => (s.unschedule id now).2
  | repair now stored low high => (s.repair now stored low high).2
  | prune now => (s.prune now).2
  | applyTargetSoc soc time now current c =>
    match s.applyTargetSoc soc time now current c with
    | .ok s' => s'
    | .error _ => s

namespace DeviceState

/-- States that allowed operations lead to. -/
inductive Reachable (allowed : DeviceOperation → Prop) : DeviceState → Prop
  | fresh : Reachable allowed DeviceState.fresh
  | step {s : DeviceState} {op : DeviceOperation} :
      Reachable allowed s → allowed op → Reachable allowed (op.perform s)

theorem Reachable.foldl {allowed : DeviceOperation → Prop} {s : DeviceState}
    (h : Reachable allowed s) (ops : List DeviceOperation) (hops : ∀ op ∈ ops, allowed op) :
    Reachable allowed (ops.foldl DeviceOperation.perform s) := by
  induction ops generalizing s with
  | nil => exact h
  | cons op rest ih =>
      exact ih (h.step (hops op (by simp))) fun op hop => hops op (List.mem_cons_of_mem _ hop)

theorem Reachable.mono {allowed allowed' : DeviceOperation → Prop} {s : DeviceState}
    (h : Reachable allowed s) (hops : ∀ op, allowed op → allowed' op) : Reachable allowed' s := by
  induction h with
  | fresh => exact .fresh
  | step _ hop ih => exact ih.step (hops _ hop)

/-! ## Pairs of a flexibility and its task -/

/-- A flexibility and its task belong together under the id `k`. -/
structure Linked (k : Int) (f : Flexibility) (t : Task) : Prop where
  nonneg : 0 ≤ k
  flexibility : f.id = k
  assigned : f.taskId = k
  task : t.id = k
  named : t.flexibilityId = k

/-- A flexibility that has a task is not free. -/
theorem Linked.not_free {k : Int} {f : Flexibility} {t : Task} (h : Linked k f t) :
    f.isFree = false := by
  have := h.nonneg
  rw [Flexibility.isFree, h.assigned]
  exact decide_eq_false (by omega)

/-- Flexibilities and tasks have the same ids, and what an id names satisfies `P`. -/
def Paired (P : Int → Flexibility → Task → Prop) (flexibilities : OrderedMap Int Flexibility)
    (tasks : OrderedMap Int Task) : Prop :=
  ∀ k, (flexibilities.get? k = none ∧ tasks.get? k = none) ∨
    ∃ f t, flexibilities.get? k = some f ∧ tasks.get? k = some t ∧ P k f t

/-- A state whose pairs satisfy `P` and that hands out ids that are not negative. -/
structure Holds (P : Int → Flexibility → Task → Prop) (s : DeviceState) : Prop where
  counter : 0 ≤ s.idCounter
  paired : Paired P s.flexibilities s.tasks

section Paired

variable {P : Int → Flexibility → Task → Prop} {fs : OrderedMap Int Flexibility}
  {ts : OrderedMap Int Task} {k : Int} {f : Flexibility} {t : Task}

theorem Paired.of_task (h : Paired P fs ts) (ht : ts.get? k = some t) :
    ∃ f, fs.get? k = some f ∧ P k f t := by
  rcases h k with ⟨-, hnone⟩ | ⟨f, t', hf, ht', hP⟩
  · rw [hnone] at ht
    cases ht
  · rw [ht'] at ht
    cases ht
    exact ⟨f, hf, hP⟩

theorem Paired.of_flexibility (h : Paired P fs ts) (hf : fs.get? k = some f) :
    ∃ t, ts.get? k = some t ∧ P k f t := by
  rcases h k with ⟨hnone, -⟩ | ⟨f', t, hf', ht, hP⟩
  · rw [hnone] at hf
    cases hf
  · rw [hf'] at hf
    cases hf
    exact ⟨t, ht, hP⟩

theorem Holds.mono {s : DeviceState} {Q : Int → Flexibility → Task → Prop} (h : s.Holds P)
    (hPQ : ∀ {k f t}, P k f t → Q k f t) : s.Holds Q :=
  ⟨h.counter, fun k => (h.paired k).imp_right fun ⟨f, t, hf, ht, hP⟩ => ⟨f, t, hf, ht, hPQ hP⟩⟩

theorem Paired.empty : Paired P OrderedMap.empty OrderedMap.empty := fun _ => .inl ⟨rfl, rfl⟩

/-- A new pair, whatever was stored under its id. -/
theorem Paired.insert_pair (h : Paired P fs ts) (hP : P k f t) :
    Paired P (fs.insert k f) (ts.insert k t) := by
  intro j
  rw [OrderedMap.get?_insert, OrderedMap.get?_insert]
  by_cases hj : j = k
  · rw [if_pos hj, if_pos hj]
    exact .inr ⟨f, t, rfl, rfl, hj ▸ hP⟩
  · rw [if_neg hj, if_neg hj]
    exact h j

/-- Another task in an existing pair. -/
theorem Paired.insert_task (h : Paired P fs ts) (ht : ts.get? k = some t) {t' : Task}
    (hP : ∀ f, fs.get? k = some f → P k f t → P k f t') : Paired P fs (ts.insert k t') := by
  intro j
  rw [OrderedMap.get?_insert]
  by_cases hj : j = k
  · obtain ⟨f, hf, hft⟩ := h.of_task ht
    rw [if_pos hj, hj]
    exact .inr ⟨f, t', hf, rfl, hP f hf hft⟩
  · rw [if_neg hj]
    exact h j

theorem Paired.modify_task (h : Paired P fs ts) {g : Task → Task}
    (hP : ∀ f t, fs.get? k = some f → ts.get? k = some t → P k f t → P k f (g t)) :
    Paired P fs (ts.modify k g) := by
  intro j
  rw [OrderedMap.get?_modify]
  by_cases hj : j = k
  · rw [if_pos hj, hj]
    rcases h k with ⟨hf, ht⟩ | ⟨f, t, hf, ht, hft⟩
    · exact .inl ⟨hf, by rw [ht]; rfl⟩
    · exact .inr ⟨f, g t, hf, by rw [ht]; rfl, hP f t hf ht hft⟩
  · rw [if_neg hj]
    exact h j

theorem Paired.modify_flexibility (h : Paired P fs ts) {g : Flexibility → Flexibility}
    (hP : ∀ f t, P k f t → P k (g f) t) : Paired P (fs.modify k g) ts := by
  intro j
  rw [OrderedMap.get?_modify]
  by_cases hj : j = k
  · rw [if_pos hj, hj]
    rcases h k with ⟨hf, ht⟩ | ⟨f, t, hf, ht, hft⟩
    · exact .inl ⟨by rw [hf]; rfl, ht⟩
    · exact .inr ⟨g f, t, by rw [hf]; rfl, ht, hP f t hft⟩
  · rw [if_neg hj]
    exact h j

/-- An id names the task that carries it, so a choice among the tasks is one among the ids. -/
theorem Paired.mem_ids_filter (h : Paired Linked fs ts) {p : Task → Bool} :
    k ∈ (ts.values.filter p).map (·.id) ↔ ∃ t, ts.get? k = some t ∧ p t = true := by
  simp only [List.mem_map, List.mem_filter, OrderedMap.mem_values_iff_get?]
  constructor
  · rintro ⟨t, ⟨⟨j, hj⟩, hp⟩, rfl⟩
    obtain ⟨f, -, hlinked⟩ := h.of_task hj
    exact ⟨t, hlinked.task.symm ▸ hj, hp⟩
  · rintro ⟨t, ht, hp⟩
    obtain ⟨f, -, hlinked⟩ := h.of_task ht
    exact ⟨t, ⟨⟨k, ht⟩, hp⟩, hlinked.task⟩

theorem Paired.flexibilityIds_filter (h : Paired Linked fs ts) (p : Task → Bool) :
    (ts.values.filter p).map (·.flexibilityId) = (ts.values.filter p).map (·.id) := by
  refine List.map_congr_left fun t ht => ?_
  obtain ⟨j, hj⟩ := OrderedMap.mem_values_iff_get?.1 (List.mem_filter.1 ht).1
  obtain ⟨f, -, hlinked⟩ := h.of_task hj
  rw [hlinked.named, hlinked.task]

/-! ### What is forgotten -/

theorem get?_tasks_prune {s : DeviceState} (h : Paired Linked s.flexibilities s.tasks)
    (now k : Int) :
    (s.prune now).2.tasks.get? k = (s.tasks.get? k).filter fun t => now ≤ t.stop := by
  simp only [DeviceState.prune, OrderedMap.get?_foldl_erase, h.mem_ids_filter, decide_eq_true_eq]
  cases s.tasks.get? k with
  | none => simp
  | some t => by_cases hstop : t.stop < now <;> simp [Option.filter_some, hstop]

/-- A flexibility with a task is never free, so that it goes with its task only. -/
theorem get?_flexibilities_prune {s : DeviceState}
    (h : Paired Linked s.flexibilities s.tasks) (now k : Int) :
    (s.prune now).2.flexibilities.get? k
      = if ∃ t, s.tasks.get? k = some t ∧ t.stop < now then none
        else s.flexibilities.get? k := by
  simp only [DeviceState.prune, OrderedMap.get?_filter, OrderedMap.get?_foldl_erase,
    h.flexibilityIds_filter, h.mem_ids_filter, decide_eq_true_eq]
  split
  · rfl
  · cases hf : s.flexibilities.get? k with
    | none => rfl
    | some f =>
        obtain ⟨t, -, hlinked⟩ := h.of_flexibility hf
        simp [hlinked.not_free]

end Paired

/-! ## What may happen to a pair -/

/-- A property of pairs that every allowed operation keeps. -/
structure PairInvariant (allowed : DeviceOperation → Prop)
    (P : Int → Flexibility → Task → Prop) : Prop where
  linked : ∀ {k f t}, P k f t → Linked k f t
  newDay : ∀ {id start stop stored c}, 0 ≤ id → allowed (.addDay start stop stored c) →
    P id (offeredDay id start stop stored c)
      (Task.idle id id true start (Quantity.low32 (stop - start)))
  localDay : ∀ {device start stop now stored zone c id time}, allowed
      (.getSchedule device start stop now stored zone c) → time = start ∨ time = stop →
    ∀ energy, 0 ≤ id →
    P id (offeredDay id (Calendar.startOfDay zone time) (Calendar.startOfNextDay zone time)
        energy c)
      (Task.idle id id true (Calendar.startOfDay zone time) (Quantity.low32
        (Calendar.startOfNextDay zone time - Calendar.startOfDay zone time)))
  corridors : ∀ {k f t} (power energy), P k f t →
    P k { f with powerCorridor := power, energyCorridor := energy } t
  scheduled : ∀ {k f t id startingTime power now}, P k f t →
    allowed (.schedule id startingTime power now) → f.Fits startingTime power →
    P k f (rescheduled t startingTime power)
  adapted : ∀ {k f t power}, P k f t → f.Fits t.startingTime power →
    P k f (Task.compress { t with power := power })
  rested : ∀ {k f t}, P k f t → P k f { t with power := PowerProfile.idle t.runningTime }
  repaired : ∀ {k f t time}, P k f t → covers time false t →
    P k f { t with power := t.power.insert (Quantity.low32 (time - t.startingTime)) 0 }
  compressed : ∀ {k f t}, P k f t → P k f t.compress

section Invariant

variable {allowed : DeviceOperation → Prop} {P : Int → Flexibility → Task → Prop}
  {s : DeviceState}

theorem Holds.withDay (h : s.Holds P) {id start stop stored : Int} {c : DeviceConfig}
    (hid : 0 ≤ id) (hP : P id (offeredDay id start stop stored c)
      (Task.idle id id true start (Quantity.low32 (stop - start)))) :
    (s.withDay id start stop stored c).Holds P :=
  ⟨idAfter_nonneg hid, h.paired.insert_pair hP⟩

theorem Holds.addDay (hinv : PairInvariant allowed P) (h : s.Holds P)
    {start stop stored : Int} {c : DeviceConfig} (hday : allowed (.addDay start stop stored c)) :
    (s.addDay start stop stored c).2.Holds P := by
  rcases s.addDay_cases start stop stored c with ⟨k, t, -, -, heq⟩ | heq
  · -- A day that is covered already changes nothing.
    rw [heq]
    exact h
  · rw [heq]
    exact h.withDay (nextId_nonneg h.counter) (hinv.newDay (nextId_nonneg h.counter) hday)

theorem Holds.ensureDay (hinv : PairInvariant allowed P) (h : s.Holds P) {device : DeviceId}
    {start stop now stored : Int} {zone : Zone} {c : DeviceConfig}
    (hallowed : allowed (.getSchedule device start stop now stored zone c)) {time : Int}
    (htime : time = start ∨ time = stop) (stopIncluded : Bool) :
    (s.ensureDay time stopIncluded now stored zone c).2.Holds P := by
  rcases s.ensureDay_cases time stopIncluded now stored zone c with
    ⟨k, t, -, -, heq⟩ | ⟨energy, heq⟩
  · rw [heq]
    exact h
  · rw [heq]
    exact h.withDay (nextId_nonneg h.counter)
      (hinv.localDay hallowed htime energy (nextId_nonneg h.counter))

theorem Holds.ensureDays (hinv : PairInvariant allowed P) (h : s.Holds P) {device : DeviceId}
    {start stop now stored : Int} {zone : Zone} {c : DeviceConfig}
    (hallowed : allowed (.getSchedule device start stop now stored zone c)) :
    (s.ensureDays start stop now stored zone c).2.Holds P :=
  (h.ensureDay hinv hallowed (.inl rfl) false).ensureDay hinv hallowed (.inr rfl) true

theorem Holds.setCorridors (hinv : PairInvariant allowed P) (h : s.Holds P) (id : Int)
    (power energy : Corridor) : (s.setCorridors id power energy).Holds P :=
  ⟨h.counter, h.paired.modify_flexibility fun _ _ => hinv.corridors power energy⟩

theorem Holds.refreshAll (hinv : PairInvariant allowed P) {now stored : Int} {c : DeviceConfig} :
    ∀ {ids : List Int} {s s' : DeviceState}, s.Holds P →
      refreshAll now stored c ids s = .ok s' → s'.Holds P
  | [], _, _, h, hs' => Except.ok.inj hs' ▸ h
  | id :: rest, s, s', h, hs' => by
      rw [DeviceState.refreshAll] at hs'
      -- One id at a time: either it names no task, or two corridors are replaced.
      cases hid : s.tasks.get? id with
      | none =>
          rw [hid] at hs'
          exact Holds.refreshAll hinv h hs'
      | some task =>
          rw [hid] at hs'
          obtain ⟨s₁, hs₁, hrest⟩ := bind_eq_ok_iff.1 hs'
          obtain ⟨power, energy, rfl, -⟩ := refresh_spec hs₁
          exact Holds.refreshAll hinv (h.setCorridors hinv _ power energy) hrest

theorem Holds.getSchedule (hinv : PairInvariant allowed P) (h : s.Holds P) {s' : DeviceState}
    {device : DeviceId} {start stop now stored : Int} {zone : Zone} {c : DeviceConfig}
    {summary : ScheduleSummary}
    (hzone : allowed (.getSchedule device start stop now stored zone c))
    (hs' : s.getSchedule device start stop now stored zone c = .ok (summary, s')) :
    s'.Holds P := by
  obtain ⟨-, -, -, -, hrefresh⟩ := getSchedule_eq_ok hs'
  exact Holds.refreshAll hinv (h.ensureDays hinv hzone) hrefresh

theorem Holds.schedule (hinv : PairInvariant allowed P) (h : s.Holds P)
    {id startingTime : Int} {power : PowerProfile} {now : Int}
    (hop : allowed (.schedule id startingTime power now)) :
    (s.schedule id startingTime power now).2.Holds P := by
  rcases s.schedule_cases id startingTime power now with
    ⟨-, heq⟩ | ⟨f, task, hf, htask, -, hfits, heq⟩
  · -- A refused profile leaves everything as it was.
    rw [heq]
    exact h
  · -- The id of the flexibility is that of the task, so one pair gets a new task.
    rw [heq]
    obtain ⟨t, ht, hP⟩ := h.paired.of_flexibility hf
    have hid : f.taskId = id := (hinv.linked hP).assigned
    refine ⟨h.counter, h.paired.insert_task htask fun f' hf' hP' => ?_⟩
    rw [hid, hf, Option.some.injEq] at hf'
    exact hinv.scheduled hP' hop (hf' ▸ hfits)

theorem Holds.adapt (hinv : PairInvariant allowed P) (h : s.Holds P) (id : Int)
    (update : PowerProfile) : (s.adapt id update).2.Holds P := by
  rcases s.adapt_cases id update with
    ⟨-, heq⟩ | ⟨f, task, first, last, hf, -, htask, -, -, hfits, heq⟩
  · rw [heq]
    exact h
  · -- As for a scheduled profile.
    rw [heq]
    obtain ⟨t, ht, hP⟩ := h.paired.of_flexibility hf
    have hid : f.taskId = id := (hinv.linked hP).assigned
    refine ⟨h.counter, h.paired.insert_task htask fun f' hf' hP' => ?_⟩
    rw [hid, hf, Option.some.injEq] at hf'
    exact hinv.adapted hP' (hf' ▸ hfits)

theorem Holds.unschedule (hinv : PairInvariant allowed P) (h : s.Holds P) (id now : Int) :
    (s.unschedule id now).2.Holds P := by
  rcases s.unschedule_cases id now with ⟨-, heq⟩ | ⟨f, task, hf, htask, heq⟩
  · rw [heq]
    exact h
  · rw [heq]
    exact ⟨h.counter, h.paired.insert_task htask fun _ _ hP => hinv.rested hP⟩

/-- The task found at an instant is the one stored under its id. -/
theorem Paired.get?_of_find? {fs : OrderedMap Int Flexibility} {ts : OrderedMap Int Task}
    (hinv : PairInvariant allowed P) (h : Paired P fs ts) {time : Int} {found : Task}
    (hfind : ts.values.find? (covers time false) = some found) :
    ts.get? found.id = some found ∧ covers time false found := by
  obtain ⟨k, hk⟩ := OrderedMap.mem_values_iff_get?.1 (List.mem_of_find?_eq_some hfind)
  obtain ⟨f, -, hP⟩ := h.of_task hk
  rw [(hinv.linked hP).task]
  exact ⟨hk, List.find?_some hfind⟩

theorem Paired.restTaskAt {fs : OrderedMap Int Flexibility} {ts : OrderedMap Int Task}
    (hinv : PairInvariant allowed P) (h : Paired P fs ts) (time : Int) :
    Paired P fs (restTaskAt ts time) := by
  rw [DeviceState.restTaskAt]
  split
  · exact h
  · rename_i found hfind
    obtain ⟨hget, hcovers⟩ := h.get?_of_find? hinv hfind
    refine h.modify_task fun f t hf ht hP => ?_
    rw [hget, Option.some.injEq] at ht
    exact hinv.repaired hP (ht ▸ hcovers)

theorem Paired.repairAlong {fs : OrderedMap Int Flexibility} (hinv : PairInvariant allowed P)
    (low high : Int) : ∀ (later : List Int) (time : Int) (r : Repair), Paired P fs r.tasks →
      Paired P fs (repairAlong low high time later r).tasks
  | [], _, _, h => h
  | next :: later, time, r, h => by
      rw [DeviceState.repairAlong]
      split
      · exact Paired.repairAlong hinv low high later next _ (h.restTaskAt hinv time)
      · exact Paired.repairAlong hinv low high later next _ h

theorem Holds.repair (hinv : PairInvariant allowed P) (h : s.Holds P)
    (now stored low high : Int) : (s.repair now stored low high).2.Holds P := by
  refine ⟨h.counter, ?_⟩
  -- Pairs survive the loop, and the task compressed at its end stays in its pair.
  have hdone := Paired.repairAlong hinv low high
    (s.scheduledPower.keys.filter (fun k => now < k)) now ⟨s.scheduledPower, s.tasks, stored, 0⟩
    h.paired
  simp only [DeviceState.repair]
  split
  · exact hdone
  · exact hdone.modify_task fun f t _ _ hP => hinv.compressed hP

/-- Pairs are forgotten as a whole. -/
theorem Holds.prune (hinv : PairInvariant allowed P) (h : s.Holds P) (now : Int) :
    (s.prune now).2.Holds P := by
  have hlinked := (h.mono hinv.linked).paired
  refine ⟨h.counter, fun k => ?_⟩
  rw [get?_tasks_prune hlinked, get?_flexibilities_prune hlinked]
  rcases h.paired k with ⟨hf, ht⟩ | ⟨f, t, hf, ht, hP⟩
  · left
    rw [hf, ht]
    exact ⟨ite_self _, rfl⟩
  · -- A pair is dropped if its task has expired and stays otherwise.
    rw [hf, ht]
    by_cases hexpired : t.stop < now
    · left
      simp [hexpired]
    · right
      exact ⟨f, t, by simp [hexpired], by simp [Int.not_lt.1 hexpired], hP⟩

theorem Holds.applyTargetSoc (h : s.Holds P) {s' : DeviceState} {soc time now : Int}
    {current : Float} {c : DeviceConfig}
    (hs' : s.applyTargetSoc soc time now current c = .ok s') : s'.Holds P := by
  simp only [DeviceState.applyTargetSoc] at hs'
  split at hs'
  · cases hs'
    exact ⟨h.counter, h.paired⟩
  · obtain ⟨power, -, hs'⟩ := bind_eq_ok_iff.1 hs'
    cases hs'
    exact ⟨h.counter, h.paired⟩

/-- One allowed operation. -/
theorem Holds.perform (hinv : PairInvariant allowed P) (h : s.Holds P) {op : DeviceOperation}
    (hop : allowed op) : (op.perform s).Holds P := by
  -- One lemma for each operation; a failed one leaves the state as it was.
  cases op with
  | addDay start stop stored c => exact h.addDay hinv hop
  | getSchedule device start stop now stored zone c =>
      simp only [DeviceOperation.perform]
      split
      · rename_i summary s' hs'
        exact h.getSchedule hinv hop hs'
      · exact h
  | schedule id startingTime power now => exact h.schedule hinv hop
  | adapt id update => exact h.adapt hinv id update
  | unschedule id now => exact h.unschedule hinv id now
  | repair now stored low high => exact h.repair hinv now stored low high
  | prune now => exact h.prune hinv now
  | applyTargetSoc soc time now current c =>
      simp only [DeviceOperation.perform]
      split
      · rename_i s' hs'
        exact h.applyTargetSoc hs'
      · exact h

/-- What every allowed operation keeps holds in every reachable state. -/
theorem Reachable.holds (hinv : PairInvariant allowed P) (h : Reachable allowed s) :
    s.Holds P := by
  induction h with
  | fresh => exact ⟨Int.le_refl 0, Paired.empty⟩
  | step _ hop ih => exact ih.perform hinv hop

/-- Belonging together is kept by everything that can be done. -/
theorem linkedInvariant (allowed : DeviceOperation → Prop) : PairInvariant allowed Linked where
  linked h := h
  newDay hid _ := ⟨hid, rfl, rfl, rfl, rfl⟩
  localDay _ _ _ hid := ⟨hid, rfl, rfl, rfl, rfl⟩
  corridors _ _ h := ⟨h.1, h.2, h.3, h.4, h.5⟩
  scheduled h _ _ := ⟨h.1, h.2, h.3, h.4, h.5⟩
  adapted h _ := ⟨h.1, h.2, h.3, h.4, h.5⟩
  rested h := ⟨h.1, h.2, h.3, h.4, h.5⟩
  repaired h _ := ⟨h.1, h.2, h.3, h.4, h.5⟩
  compressed h := ⟨h.1, h.2, h.3, h.4, h.5⟩

theorem Holds.named (hinv : PairInvariant allowed P) (h : s.Holds P) :
    ∀ k t, s.tasks.get? k = some t → t.flexibilityId = k := by
  intro k t ht
  obtain ⟨f, -, hP⟩ := h.paired.of_task ht
  exact (hinv.linked hP).named

/-- The flexibilities that are listed in an answer are refreshed. -/
theorem Holds.refreshed (hinv : PairInvariant allowed P) (h : s.Holds P) {s' : DeviceState}
    {device : DeviceId} {start stop now stored : Int} {zone : Zone} {c : DeviceConfig}
    {summary : ScheduleSummary}
    (hzone : allowed (.getSchedule device start stop now stored zone c))
    (hs' : s.getSchedule device start stop now stored zone c = .ok (summary, s'))
    {id : Int} (hid : id ∈ summary.taskIds) {t : Task} {f : Flexibility}
    (ht : s'.tasks.get? id = some t) (hf : s'.flexibilities.get? id = some f) :
    Refreshed s' now stored c t f := by
  obtain ⟨-, -, hids, -, hrefresh⟩ := getSchedule_eq_ok hs'
  obtain ⟨heq, -, hrefreshed⟩ := refreshAll_spec hrefresh ((h.ensureDays hinv hzone).named hinv)
  have htasks : s'.tasks = (s.ensureDays start stop now stored zone c).2.tasks := by
    rw [heq]
  obtain ⟨hfuture, hpower, hstarted, hblocked⟩ := hrefreshed id t f (hids ▸ hid) (htasks ▸ ht) hf
  rw [heq]
  exact ⟨hfuture, hpower, hstarted, hblocked⟩

/-- An answer does not change a charge target. -/
theorem Holds.target_of_getSchedule (hinv : PairInvariant allowed P) (h : s.Holds P)
    {s' : DeviceState} {device : DeviceId} {start stop now stored : Int} {zone : Zone}
    {c : DeviceConfig} {summary : ScheduleSummary}
    (hzone : allowed (.getSchedule device start stop now stored zone c))
    (hs' : s.getSchedule device start stop now stored zone c = .ok (summary, s')) :
    s'.targetSoc = s.targetSoc ∧ s'.targetSocTime = s.targetSocTime := by
  obtain ⟨-, -, -, -, hrefresh⟩ := getSchedule_eq_ok hs'
  have heq := (refreshAll_spec hrefresh ((h.ensureDays hinv hzone).named hinv)).1
  have hfirst := target_ensureDay s start false now stored zone c
  have hlast := target_ensureDay (s.ensureDay start false now stored zone c).2 stop true now stored
    zone c
  rw [heq]
  exact ⟨hlast.1.trans hfirst.1, hlast.2.trans hfirst.2⟩

end Invariant

end DeviceState
end SiteDispatch
