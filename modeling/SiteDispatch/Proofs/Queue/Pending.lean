/-
  SiteDispatch.Proofs.Queue.Pending

  What calls to a queue do to the jobs that wait in it.

  A queue keeps a map for each kind of job. Seen as a whole it is a collection of jobs, each with
  the time from which on it is eligible. `Outcome` says once what can come of a call: which entry
  is added or taken, and under which conditions. A publication that is queued never takes the
  place of another one, and the job that is handed out is the first of the collection.
-/

import SiteDispatch.Proofs.OrderedMap.Lookup
import SiteDispatch.Queue.Basic

namespace SiteDispatch

/-! ## Waiting jobs -/

/-- Rank of a job among those that are eligible at the same time. -/
def Job.rank : Job → Nat
  | .publish request =>
    match request.kind with
    | .initialSchedule => 0
    | .scheduleUpdate => 1
  | .optimizeTargetCompliance => 2

/-- A job that waits, and the time from which on it is eligible. -/
structure PendingJob where
  time : Int
  job : Job
deriving DecidableEq

/-- Of two jobs the one that is eligible earlier comes first, and of two that are eligible at the
    same time the one of lower rank. -/
def PendingJob.Precedes (p p' : PendingJob) : Prop :=
  p.time < p'.time ∨ p.time = p'.time ∧ p.job.rank ≤ p'.job.rank

namespace JobQueue

variable {q : JobQueue} {now : Int}

/-- The jobs that wait. -/
def pending (q : JobQueue) : List PendingJob :=
  q.initial.entries.map (fun e => ⟨e.1, .publish e.2⟩) ++
    (q.update.entries.map (fun e => ⟨e.1, .publish e.2⟩) ++
      q.target.entries.map fun e => ⟨e.1, .optimizeTargetCompliance⟩)

theorem mem_pending {p : PendingJob} :
    p ∈ q.pending ↔ (∃ request, q.initial.get? p.time = some request ∧ p.job = .publish request) ∨
      (∃ request, q.update.get? p.time = some request ∧ p.job = .publish request) ∨
      q.target.get? p.time = some () ∧ p.job = .optimizeTargetCompliance := by
  obtain ⟨time, job⟩ := p
  simp only [pending, List.mem_append, List.mem_map, OrderedMap.get?_eq_some_iff, Prod.exists,
    PendingJob.mk.injEq]
  constructor
  · rintro (⟨_, request, hmem, rfl, rfl⟩ | ⟨_, request, hmem, rfl, rfl⟩ | ⟨_, _, hmem, rfl, rfl⟩)
    · exact .inl ⟨request, hmem, rfl⟩
    · exact .inr (.inl ⟨request, hmem, rfl⟩)
    · exact .inr (.inr ⟨hmem, rfl⟩)
  · rintro (⟨request, hmem, rfl⟩ | ⟨request, hmem, rfl⟩ | ⟨hmem, rfl⟩)
    · exact .inl ⟨time, request, hmem, rfl, rfl⟩
    · exact .inr (.inl ⟨time, request, hmem, rfl, rfl⟩)
    · exact .inr (.inr ⟨time, (), hmem, rfl, rfl⟩)

/-- The times at which a job is eligible are the keys of the three maps. -/
theorem exists_mem_pending_iff {time : Int} :
    (∃ p ∈ q.pending, p.time = time) ↔
      time ∈ q.initial.keys ∨ time ∈ q.update.keys ∨ time ∈ q.target.keys := by
  simp only [OrderedMap.mem_keys_iff_get?]
  constructor
  · rintro ⟨p, hp, rfl⟩
    rcases mem_pending.1 hp with ⟨request, hget, -⟩ | ⟨request, hget, -⟩ | ⟨hget, -⟩
    · exact .inl ⟨request, hget⟩
    · exact .inr (.inl ⟨request, hget⟩)
    · exact .inr (.inr ⟨(), hget⟩)
  · rintro (⟨request, hget⟩ | ⟨request, hget⟩ | ⟨⟨⟩, hget⟩)
    · exact ⟨⟨time, .publish request⟩, mem_pending.2 (.inl ⟨request, hget, rfl⟩), rfl⟩
    · exact ⟨⟨time, .publish request⟩, mem_pending.2 (.inr (.inl ⟨request, hget, rfl⟩)), rfl⟩
    · exact ⟨⟨time, .optimizeTargetCompliance⟩, mem_pending.2 (.inr (.inr ⟨hget, rfl⟩)), rfl⟩

/-- A queue with a job wakes up by the time at which that is eligible. -/
theorem exists_nextWake? {p : PendingJob} (hp : p ∈ q.pending) :
    ∃ time, q.nextWake? = some time ∧ time ≤ p.time := by
  -- Nothing is earlier than the first key of its own map.
  have hfirst : ∃ t ∈ q.initial.firstKey?.toList ++ q.update.firstKey?.toList ++
      q.target.firstKey?.toList, t ≤ p.time := by
    simp only [List.mem_append, Option.mem_toList]
    rcases exists_mem_pending_iff.1 ⟨p, hp, rfl⟩ with hmem | hmem | hmem
    · obtain ⟨t, ht, hle⟩ := OrderedMap.exists_firstKey? hmem
      exact ⟨t, .inl (.inl ht), Int.not_lt.1 hle⟩
    · obtain ⟨t, ht, hle⟩ := OrderedMap.exists_firstKey? hmem
      exact ⟨t, .inl (.inr ht), Int.not_lt.1 hle⟩
    · obtain ⟨t, ht, hle⟩ := OrderedMap.exists_firstKey? hmem
      exact ⟨t, .inr ht, Int.not_lt.1 hle⟩
  obtain ⟨t, ht, hle⟩ := hfirst
  obtain ⟨time, htime⟩ := Option.isSome_iff_exists.1 (List.isSome_min?_of_mem ht)
  exact ⟨time, htime, Int.le_trans ((List.min?_eq_some_iff.1 htime).2 t ht) hle⟩

/-- It wakes up for a job. -/
theorem exists_mem_pending_of_nextWake? {time : Int} (h : q.nextWake? = some time) :
    ∃ p ∈ q.pending, p.time = time := by
  have hmem := (List.min?_eq_some_iff.1 h).1
  simp only [List.mem_append, Option.mem_toList, OrderedMap.firstKey?_eq_some_iff] at hmem
  rw [exists_mem_pending_iff]
  rcases hmem with (⟨hkey, -⟩ | ⟨hkey, -⟩) | ⟨hkey, -⟩
  · exact .inl hkey
  · exact .inr (.inl hkey)
  · exact .inr (.inr hkey)

/-! ## Calls -/

/-- What can be asked of a queue. -/
inductive Call
  | optimize (force : Bool)
  | publish (request : PublicationRequest)
  | take
deriving DecidableEq

/-- What a queue answers: whether it queued a job, or the job that it hands out. -/
inductive Answer
  | queued (accepted : Bool)
  | taken (job : Option Job)
deriving DecidableEq

/-- The answer to a call at `now`, and the queue afterwards. -/
def serve (q : JobQueue) (now : Int) : Call → Answer × JobQueue
  | .optimize force =>
    let (accepted, q) := q.queueTargetOptimization force now
    (.queued accepted, q)
  | .publish request =>
    let (accepted, q) := q.queuePublication request now
    (.queued accepted, q)
  | .take =>
    let (job, q) := q.takeDue now
    (.taken job, q)

/-- What has to be waited for after a run at `last`, if there was one, has come by `time`. -/
def Rested (last : Option Int) (interval time : Int) : Prop :=
  ∀ t, last = some t → Quantity.low64 (t + interval) ≤ time

/-- The run is at least `interval` before `time` then, unless that is too much for 64 bits. -/
theorem rested_some_iff {t interval time : Int} (hfits : Fits64 (t + interval)) :
    Rested (some t) interval time ↔ t + interval ≤ time := by
  simp [Rested, hfits.low64_eq_self]

/-- What can come of a call at `now`. -/
inductive Outcome (q : JobQueue) (now : Int) : Call → Answer → JobQueue → Prop
  | optimizeDropped : Outcome q now (.optimize false) (.queued false) q
  | optimizeQueued {force : Bool} {time : Int}
      (halone : force = false → q.target = .empty)
      (hrested : Rested q.lastTargetRun q.complianceInterval time) :
      Outcome q now (.optimize force) (.queued true) { q with target := q.target.insert time () }
  | initialQueued {request : PublicationRequest} {time : Int}
      (hkind : request.kind = .initialSchedule) (hfree : q.initial.get? time = none) :
      Outcome q now (.publish request) (.queued true)
        { q with initial := q.initial.insert time request }
  | updateDropped {request : PublicationRequest} (hkind : request.kind = .scheduleUpdate) :
      Outcome q now (.publish request) (.queued false) q
  | updateQueued {request : PublicationRequest} (hkind : request.kind = .scheduleUpdate)
      (halone : q.update = .empty) (hrested : Rested q.lastUpdateRun q.updateInterval now) :
      Outcome q now (.publish request) (.queued true)
        { q with update := q.update.insert now request }
  | nothingDue (hlater : ∀ p ∈ q.pending, now < p.time) : Outcome q now .take (.taken none) q
  | initialTaken {request : PublicationRequest} {time : Int} (hdue : time ≤ now)
      (hfirst : ∀ p ∈ q.pending, time ≤ p.time) (hget : q.initial.get? time = some request) :
      Outcome q now .take (.taken (some (.publish request)))
        { q with initial := q.initial.erase time }
  | updateTaken {request : PublicationRequest} {time : Int} (hdue : time ≤ now)
      (hfirst : ∀ p ∈ q.pending, time ≤ p.time) (hinitial : q.initial.get? time = none)
      (hget : q.update.get? time = some request) :
      Outcome q now .take (.taken (some (.publish request)))
        { q with update := q.update.erase time, lastUpdateRun := some now }
  | targetTaken {time : Int} (hdue : time ≤ now) (hfirst : ∀ p ∈ q.pending, time ≤ p.time)
      (hinitial : q.initial.get? time = none) (hupdate : q.update.get? time = none)
      (hget : q.target.get? time = some ()) :
      Outcome q now .take (.taken (some .optimizeTargetCompliance))
        { q with target := q.target.erase time, lastTargetRun := some now }

/-- A forced job waits until enough time has passed since the last run. -/
theorem rested_rateLimited (now : Int) (last : Option Int) (interval : Int) :
    Rested last interval (rateLimited now last interval) := by
  rintro t rfl
  exact Int.le_max_right _ _

/-- A job that is not dropped is the only one of its kind, and enough time has passed. -/
theorem coalesced_eq_false_iff {pending : Bool} {last : Option Int} {interval : Int} :
    coalesced pending now last interval = false ↔ pending = false ∧ Rested last interval now := by
  cases last with
  | none => simp [coalesced, Rested]
  | some t => simp [coalesced, Rested]

/-- The first free time is free, and every time before it is taken. -/
theorem firstFree_spec : ∀ (taken : List Int) (time : Int), taken.Pairwise (· < ·) →
    time ≤ firstFree taken time ∧ firstFree taken time ∉ taken ∧
      ∀ u, time ≤ u → u < firstFree taken time → u ∈ taken
  | [], time, _ =>
      ⟨Int.le_refl time, List.not_mem_nil, fun u hle hlt => absurd (Int.lt_of_le_of_lt hle hlt)
        (Int.lt_irrefl time)⟩
  | t :: taken, time, hasc => by
      obtain ⟨hlt, hrest⟩ := List.pairwise_cons.1 hasc
      rw [firstFree]
      split
      · -- The search goes on behind a time that is taken.
        rename_i htime
        obtain ⟨hle, hfree, hbefore⟩ := firstFree_spec taken (time + 1) hrest
        refine ⟨by omega, ?_, fun u hu huf => ?_⟩
        · rw [List.mem_cons, not_or]
          exact ⟨by omega, hfree⟩
        · rcases Int.lt_or_eq_of_le hu with hu | rfl
          · exact List.mem_cons_of_mem _ (hbefore u hu huf)
          · exact htime ▸ List.mem_cons_self
      · rename_i htime
        obtain ⟨hle, hfree, hbefore⟩ := firstFree_spec taken time hrest
        refine ⟨hle, ?_, fun u hu huf => List.mem_cons_of_mem _ (hbefore u hu huf)⟩
        rw [List.mem_cons, not_or]
        refine ⟨fun hf => ?_, hfree⟩
        -- Were it the first one that is taken, `time` would be among the later ones.
        have := hlt time (hbefore time (Int.le_refl time) (by omega))
        omega

theorem outcome_optimize (q : JobQueue) (now : Int) (force : Bool) :
    Outcome q now (.optimize force) (q.serve now (.optimize force)).1
      (q.serve now (.optimize force)).2 := by
  simp only [serve, queueTargetOptimization]
  cases force with
  | true =>
      exact .optimizeQueued (fun h => by cases h)
        (rested_rateLimited now q.lastTargetRun q.complianceInterval)
  | false =>
      rw [if_neg Bool.false_ne_true]
      split
      · exact .optimizeDropped
      · rename_i hcoalesced
        obtain ⟨hempty, hrested⟩ := coalesced_eq_false_iff.1 (Bool.not_eq_true _ ▸ hcoalesced)
        rw [Bool.not_eq_false', OrderedMap.isEmpty_iff] at hempty
        exact .optimizeQueued (fun _ => hempty) hrested

theorem outcome_publish (q : JobQueue) (now : Int) (request : PublicationRequest) :
    Outcome q now (.publish request) (q.serve now (.publish request)).1
      (q.serve now (.publish request)).2 := by
  simp only [serve, queuePublication]
  cases hkind : request.kind with
  | initialSchedule =>
      refine .initialQueued hkind ?_
      rw [OrderedMap.get?_eq_none_iff]
      exact (firstFree_spec _ now q.initial.pairwise_keys).2.1
  | scheduleUpdate =>
      dsimp only
      split
      · exact .updateDropped hkind
      · rename_i hcoalesced
        obtain ⟨hempty, hrested⟩ := coalesced_eq_false_iff.1 (Bool.not_eq_true _ ▸ hcoalesced)
        rw [Bool.not_eq_false', OrderedMap.isEmpty_iff] at hempty
        exact .updateQueued hkind hempty hrested

/-- A job is taken if and only if one is due. -/
theorem outcome_take (q : JobQueue) (now : Int) :
    Outcome q now .take (q.serve now .take).1 (q.serve now .take).2 := by
  have hlater : ∀ p ∈ q.pending, q.nextWake?.filter (· ≤ now) = none → now < p.time := by
    intro p hp hnone
    obtain ⟨time, htime, hle⟩ := exists_nextWake? hp
    rw [htime, Option.filter_eq_none_iff] at hnone
    have := hnone time rfl
    simp only [decide_eq_true_eq] at this
    omega
  simp only [serve, takeDue]
  cases hnext : q.nextWake?.filter (· ≤ now) with
  | none => exact .nothingDue fun p hp => hlater p hp hnext
  | some time =>
      obtain ⟨htime, hdue⟩ := Option.filter_eq_some_iff.1 hnext
      have hdue : time ≤ now := by simpa using hdue
      have hfirst : ∀ p ∈ q.pending, time ≤ p.time := by
        intro p hp
        obtain ⟨t, ht, hle⟩ := exists_nextWake? hp
        rw [htime, Option.some.injEq] at ht
        omega
      dsimp only
      -- The map in which the job is found decides.
      cases hinitial : q.initial.get? time with
      | some request => exact .initialTaken hdue hfirst hinitial
      | none =>
          cases hupdate : q.update.get? time with
          | some request => exact .updateTaken hdue hfirst hinitial hupdate
          | none =>
              cases htarget : q.target.get? time with
              | some _ => exact .targetTaken hdue hfirst hinitial hupdate htarget
              | none =>
                  -- The queue wakes up for some job.
                  exfalso
                  obtain ⟨p, hp, rfl⟩ := exists_mem_pending_of_nextWake? htime
                  rcases mem_pending.1 hp with ⟨_, hget, -⟩ | ⟨_, hget, -⟩ | ⟨hget, -⟩
                  · rw [hinitial] at hget
                    cases hget
                  · rw [hupdate] at hget
                    cases hget
                  · rw [htarget] at hget
                    cases hget

/-- Every call has one of these outcomes. -/
theorem outcome_serve (q : JobQueue) (now : Int) (call : Call) :
    Outcome q now call (q.serve now call).1 (q.serve now call).2 := by
  cases call with
  | optimize force => exact q.outcome_optimize now force
  | publish request => exact q.outcome_publish now request
  | take => exact q.outcome_take now

/-! ## What they do to the waiting jobs -/

section Pending

variable {time : Int}

theorem pending_insert_initial (h : q.initial.get? time = none) (request : PublicationRequest) :
    ({ q with initial := q.initial.insert time request } : JobQueue).pending.Perm
      (⟨time, .publish request⟩ :: q.pending) :=
  ((OrderedMap.entries_insert_perm h request).map _).append_right _

theorem pending_insert_update (h : q.update.get? time = none) (request : PublicationRequest) :
    ({ q with update := q.update.insert time request } : JobQueue).pending.Perm
      (⟨time, .publish request⟩ :: q.pending) :=
  ((((OrderedMap.entries_insert_perm h request).map _).append_right _).append_left _).trans
    List.perm_middle

theorem pending_insert_target (h : q.target.get? time = none) :
    ({ q with target := q.target.insert time () } : JobQueue).pending.Perm
      (⟨time, .optimizeTargetCompliance⟩ :: q.pending) := by
  refine ((((OrderedMap.entries_insert_perm h ()).map _).append_left _).append_left _).trans ?_
  exact (List.perm_middle.append_left _).trans List.perm_middle

theorem pending_erase_initial {request : PublicationRequest}
    (h : q.initial.get? time = some request) :
    q.pending.Perm (⟨time, .publish request⟩ ::
      ({ q with initial := q.initial.erase time } : JobQueue).pending) :=
  ((OrderedMap.entries_perm_erase h).map _).append_right _

theorem pending_erase_update {request : PublicationRequest} (now : Int)
    (h : q.update.get? time = some request) :
    q.pending.Perm (⟨time, .publish request⟩ :: ({ q with
      update := q.update.erase time, lastUpdateRun := some now } : JobQueue).pending) :=
  ((((OrderedMap.entries_perm_erase h).map _).append_right _).append_left _).trans
    List.perm_middle

theorem pending_erase_target (now : Int) (h : q.target.get? time = some ()) :
    q.pending.Perm (⟨time, .optimizeTargetCompliance⟩ :: ({ q with
      target := q.target.erase time, lastTargetRun := some now } : JobQueue).pending) := by
  refine ((((OrderedMap.entries_perm_erase h).map _).append_left _).append_left _).trans ?_
  exact (List.perm_middle.append_left _).trans List.perm_middle

end Pending

end JobQueue
end SiteDispatch
