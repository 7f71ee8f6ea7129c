/-
  SiteDispatch.Proofs.Scheduler.Startup

  What a scheduler asks for when it starts.

  It asks for the day-ahead publication if that is overdue, and for every incomplete publication
  that still covers the future. The two do not look at each other, and the queue drops no initial
  publication: one that is overdue because it failed is asked for twice, and waits twice. Of the
  updates the queue keeps the first one. Nothing else is asked for, so that this is the only way
  in which a publication comes to wait twice.
-/

import SiteDispatch.Proofs.Queue.Pending
import SiteDispatch.Proofs.Scheduler.Publication

namespace SiteDispatch

/-! ## Publications asked for in a row -/

/-- The publication that a job makes. -/
def Job.request? : Job → Option PublicationRequest
  | .publish request => some request
  | .optimizeTargetCompliance => none

namespace JobQueue

variable {q : JobQueue} {request : PublicationRequest} {now : Int}

/-- The publications that wait. -/
def publications (q : JobQueue) : List PublicationRequest := q.pending.filterMap (·.job.request?)

/-- An update is queued that was asked for at `now`: none waits, and enough time has passed since
    the last one. -/
def AdmitsUpdate (q : JobQueue) (now : Int) : Prop :=
  q.update = .empty ∧ Rested q.lastUpdateRun q.updateInterval now

/-- The queue after publications have been asked for at `now`, one after the other. -/
def queueAll (q : JobQueue) (requests : List PublicationRequest) (now : Int) : JobQueue :=
  requests.foldl (fun q request => (q.queuePublication request now).2) q

/-- What is queued of publications that are asked for in a row: the initial ones and the first
    update. -/
def admitted (requests : List PublicationRequest) : List PublicationRequest :=
  requests.filter (·.kind = .initialSchedule) ++
    (requests.find? (·.kind = .scheduleUpdate)).toList

theorem publications_of_perm {q' : JobQueue} {time : Int}
    (h : q'.pending.Perm (⟨time, .publish request⟩ :: q.pending)) :
    q'.publications.Perm (request :: q.publications) :=
  h.filterMap _

/-- An initial publication waits besides the others, whatever they are. -/
theorem publications_queuePublication_initial (hkind : request.kind = .initialSchedule) :
    (q.queuePublication request now).2.publications.Perm (request :: q.publications) := by
  rw [queuePublication, hkind]
  apply publications_of_perm
  apply pending_insert_initial
  rw [OrderedMap.get?_eq_none_iff]
  exact (firstFree_spec _ now q.initial.pairwise_keys).2.1

/-- It is not in the way of an update. -/
theorem admitsUpdate_queuePublication_initial (hkind : request.kind = .initialSchedule) :
    (q.queuePublication request now).2.AdmitsUpdate now ↔ q.AdmitsUpdate now := by
  rw [queuePublication, hkind]
  exact Iff.rfl

theorem coalesced_eq_false_iff_admitsUpdate :
    coalesced (!q.update.isEmpty) now q.lastUpdateRun q.updateInterval = false ↔
      q.AdmitsUpdate now := by
  rw [coalesced_eq_false_iff, Bool.not_eq_false', OrderedMap.isEmpty_iff, AdmitsUpdate]

theorem queuePublication_of_admitsUpdate (hkind : request.kind = .scheduleUpdate)
    (h : q.AdmitsUpdate now) :
    (q.queuePublication request now).2 = { q with update := q.update.insert now request } := by
  simp only [queuePublication, hkind]
  rw [if_neg (Bool.not_eq_true _ ▸ coalesced_eq_false_iff_admitsUpdate.2 h)]

theorem queuePublication_of_not_admitsUpdate (hkind : request.kind = .scheduleUpdate)
    (h : ¬ q.AdmitsUpdate now) : (q.queuePublication request now).2 = q := by
  simp only [queuePublication, hkind]
  rw [if_pos]
  rw [← Bool.not_eq_false]
  exact fun hqueued => h (coalesced_eq_false_iff_admitsUpdate.1 hqueued)

/-- An update that waits is in the way of the next one. -/
theorem not_admitsUpdate_of_queued (hkind : request.kind = .scheduleUpdate)
    (h : q.AdmitsUpdate now) : ¬ (q.queuePublication request now).2.AdmitsUpdate now := by
  rw [queuePublication_of_admitsUpdate hkind h]
  rintro ⟨hempty, -⟩
  have hget := OrderedMap.get?_insert_self q.update now request
  dsimp only at hempty
  rw [hempty, OrderedMap.get?_empty] at hget
  cases hget

/-- With an update in the way, all initial publications are queued and nothing else. -/
theorem publications_queueAll_of_not_admitsUpdate (now : Int) :
    ∀ (requests : List PublicationRequest) (q : JobQueue), ¬ q.AdmitsUpdate now →
      (q.queueAll requests now).publications.Perm
        (requests.filter (·.kind = .initialSchedule) ++ q.publications) := by
  intro requests
  induction requests with
  | nil => exact fun q _ => List.Perm.refl _
  | cons request rest ih =>
      intro q hadmits
      cases hkind : request.kind with
      | initialSchedule =>
          rw [List.filter_cons_of_pos (by simpa using hkind)]
          refine (ih _ (mt (admitsUpdate_queuePublication_initial hkind).1 hadmits)).trans ?_
          refine ((publications_queuePublication_initial hkind).append_left _).trans ?_
          exact List.perm_middle
      | scheduleUpdate =>
          rw [List.filter_cons_of_neg (by simp [hkind])]
          have hdropped := queuePublication_of_not_admitsUpdate hkind hadmits
          show (JobQueue.queueAll (q.queuePublication request now).2 rest now).publications.Perm _
          rw [hdropped]
          exact ih q hadmits

/-- What waits after publications have been asked for in a row. -/
theorem publications_queueAll (now : Int) :
    ∀ (requests : List PublicationRequest) (q : JobQueue), q.AdmitsUpdate now →
      (q.queueAll requests now).publications.Perm (admitted requests ++ q.publications) := by
  intro requests
  induction requests with
  | nil => exact fun q _ => List.Perm.refl _
  | cons request rest ih =>
      intro q hadmits
      cases hkind : request.kind with
      | initialSchedule =>
          rw [admitted, List.filter_cons_of_pos (by simpa using hkind),
            List.find?_cons_of_neg (by simp [hkind])]
          refine (ih _ ((admitsUpdate_queuePublication_initial hkind).2 hadmits)).trans ?_
          refine ((publications_queuePublication_initial hkind).append_left _).trans ?_
          exact List.perm_middle
      | scheduleUpdate =>
          -- It is the first one, and those that follow find it in their way.
          rw [admitted, List.filter_cons_of_neg (by simp [hkind]),
            List.find?_cons_of_pos (by simpa using hkind)]
          refine (publications_queueAll_of_not_admitsUpdate now rest _
            (not_admitsUpdate_of_queued hkind hadmits)).trans ?_
          rw [queuePublication_of_admitsUpdate hkind hadmits, List.append_assoc]
          refine List.Perm.append_left _ (publications_of_perm (pending_insert_update ?_ request))
          rw [hadmits.1, OrderedMap.get?_empty]

/-- What is queued once differs from one another if the initial publications do. -/
theorem nodup_admitted_iff {requests : List PublicationRequest} :
    (admitted requests).Nodup ↔ (requests.filter (·.kind = .initialSchedule)).Nodup := by
  rw [admitted, List.nodup_append]
  constructor
  · exact fun h => h.1
  · intro h
    refine ⟨h, ?_, ?_⟩
    · cases requests.find? (·.kind = .scheduleUpdate) with
      | none => exact List.nodup_nil
      | some update => exact List.pairwise_singleton _ update
    · -- An update is no initial publication.
      rintro initial hinitial update hupdate rfl
      have hone := (List.mem_filter.1 hinitial).2
      have hother := List.find?_some (Option.mem_toList.1 hupdate)
      simp only [decide_eq_true_eq] at hone hother
      rw [hone] at hother
      cases hother

/-- Nothing waits, and no update has been made. -/
structure Fresh (q : JobQueue) : Prop where
  target : q.target = .empty
  initial : q.initial = .empty
  update : q.update = .empty
  lastUpdate : q.lastUpdateRun = none

end JobQueue

/-! ## The start -/

namespace Scheduler

variable {s : Scheduler} {now : Int}

/-- The publications that are asked for at the start: the day-ahead one if it is overdue, then the
    incomplete ones that still cover the future. -/
def startupRequests (s : Scheduler) (now : Int) : List PublicationRequest :=
  (if s.isOverdue (s.dayAheadWindow now) now then [s.dayAheadWindow now] else []) ++
    (s.state.retryable now).1

/-- A scheduler that comes up has an empty queue, whatever its file holds. -/
theorem fresh_restore (config : SchedulerConfig) (file : SchedulerFile) :
    (restore config file).queue.Fresh := by
  have hrestored : ∀ (q : JobQueue) (time : Int), q.Fresh →
      (q.restoreLastTargetRun time).Fresh := by
    intro q time hq
    rw [JobQueue.restoreLastTargetRun]
    split
    · exact ⟨hq.target, hq.initial, hq.update, hq.lastUpdate⟩
    · exact hq
  exact hrestored _ _ ⟨rfl, rfl, rfl, rfl⟩

theorem queue_foldl_queuePublication (now : Int) :
    ∀ (requests : List PublicationRequest) (s : Scheduler),
      (requests.foldl (fun s request => s.queuePublication request now) s).queue
        = s.queue.queueAll requests now := by
  intro requests
  induction requests with
  | nil => exact fun _ => rfl
  | cons request rest ih => exact fun s => ih (s.queuePublication request now)

/-- At the start an optimisation is asked for, and then all publications in a row. -/
theorem queue_startup (s : Scheduler) (now : Int) :
    (s.startup now).queue
      = (s.queue.queueTargetOptimization false now).2.queueAll (s.startupRequests now) now := by
  -- Neither the state nor the configuration changes before the incomplete ones are looked up.
  show (retryIncomplete (if s.isOverdue (s.dayAheadWindow now) now then
      (s.queueTargetOptimization false now).queuePublication (s.dayAheadWindow now) now
    else s.queueTargetOptimization false now) now).2.queue = _
  rw [startupRequests, JobQueue.queueAll, List.foldl_append]
  split
  · exact queue_foldl_queuePublication now _ _
  · exact queue_foldl_queuePublication now _ _

/-- The optimisation that is asked for first is not in the way of publications. -/
theorem publications_queueTargetOptimization (q : JobQueue) (hfresh : q.Fresh) (now : Int) :
    (q.queueTargetOptimization false now).2.publications = [] ∧
      (q.queueTargetOptimization false now).2.AdmitsUpdate now := by
  have hempty : ∀ target : OrderedMap Int Unit,
      ({ q with target := target } : JobQueue).publications = [] := by
    intro target
    refine List.filterMap_eq_nil_iff.2 fun p hp => ?_
    rcases JobQueue.mem_pending.1 hp with ⟨request, hget, -⟩ | ⟨request, hget, -⟩ | ⟨-, hjob⟩
    · dsimp only at hget
      rw [hfresh.initial, OrderedMap.get?_empty] at hget
      cases hget
    · dsimp only at hget
      rw [hfresh.update, OrderedMap.get?_empty] at hget
      cases hget
    · rw [hjob]
      rfl
  have hadmits : ∀ target : OrderedMap Int Unit,
      ({ q with target := target } : JobQueue).AdmitsUpdate now := by
    refine fun target => ⟨hfresh.update, fun t ht => ?_⟩
    dsimp only at ht
    rw [hfresh.lastUpdate] at ht
    cases ht
  rw [JobQueue.queueTargetOptimization, if_neg Bool.false_ne_true]
  split
  · exact ⟨hempty q.target, hadmits q.target⟩
  · exact ⟨hempty _, hadmits _⟩

/-- What waits after the start of a scheduler with an empty queue is the overdue day-ahead
    publication, the incomplete initial ones and the first incomplete update. If none of the
    incomplete ones is kept twice, no publication waits twice, unless the day-ahead publication is
    both overdue and incomplete: then that one does. -/
theorem startup_queues_once_iff (hfresh : s.queue.Fresh) (hdistinct : s.state.incomplete.Nodup) :
    (s.startup now).queue.publications.Perm (JobQueue.admitted (s.startupRequests now)) ∧
      ((s.startup now).queue.publications.Nodup ↔
        ¬ (s.isOverdue (s.dayAheadWindow now) now = true ∧
          s.dayAheadWindow now ∈ (s.state.retryable now).1)) := by
  obtain ⟨hnone, hadmits⟩ := publications_queueTargetOptimization s.queue hfresh now
  have hperm : (s.startup now).queue.publications.Perm
      (JobQueue.admitted (s.startupRequests now)) := by
    have hqueued := JobQueue.publications_queueAll now (s.startupRequests now) _ hadmits
    rwa [hnone, List.append_nil, ← queue_startup] at hqueued
  have hkept : ((s.state.retryable now).1.filter (·.kind = .initialSchedule)).Nodup :=
    (hdistinct.filter _).filter _
  refine ⟨hperm, ?_⟩
  rw [hperm.nodup_iff, JobQueue.nodup_admitted_iff, startupRequests]
  split
  · rename_i hoverdue
    -- It is an initial publication itself, in front of the others.
    have hkind : decide ((s.dayAheadWindow now).kind = .initialSchedule) = true :=
      decide_eq_true rfl
    have hfront : ([s.dayAheadWindow now] ++ (s.state.retryable now).1).filter
          (·.kind = .initialSchedule)
        = s.dayAheadWindow now :: (s.state.retryable now).1.filter (·.kind = .initialSchedule) :=
      List.filter_cons_of_pos hkind
    rw [hfront, List.nodup_cons, List.mem_filter]
    simp only [hkept, hkind, hoverdue, and_true, true_and]
  · rename_i hoverdue
    exact iff_of_true hkept fun h => hoverdue h.1

/-- A scheduler whose day-ahead publication for the second of January 1970 has failed. -/
def withFailedDayAhead : Scheduler :=
  .restore SchedulerRun.withoutDevices.scheduler.config
    (.found (some (some (SchedulerState.fresh.markIncomplete ⟨.initialSchedule, 86400, 172800⟩))))

/-- Before the publication time the failed publication is asked for again, once. -/
theorem startup_queues_once_afternoon :
    (withFailedDayAhead.startup 57600).queue.publications.Nodup := by
  have hdistinct : withFailedDayAhead.state.incomplete.Nodup := by decide
  refine ((startup_queues_once_iff (fresh_restore _ _) hdistinct).2).2 fun h => ?_
  exact absurd h.1 (by decide +kernel)

/-- In the evening it is overdue, too: it waits twice. -/
theorem startup_queues_failed_twice :
    withFailedDayAhead.queue.Fresh ∧ withFailedDayAhead.state.incomplete.Nodup ∧
      ¬ (withFailedDayAhead.startup 64800).queue.publications.Nodup :=
  ⟨fresh_restore _ _, by decide, by decide +kernel⟩

end Scheduler
end SiteDispatch
