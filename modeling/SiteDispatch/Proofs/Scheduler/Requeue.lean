/-
  SiteDispatch.Proofs.Scheduler.Requeue

  What becomes of the wish for another optimisation when a device does not answer.

  Every commitment without an answer asks for an optimisation, and to ask once more at the same
  time makes no difference. The request is an ordinary one: it is dropped while an optimisation
  waits and until the compliance interval is over. The interval of the optimisation that is being
  run has begun when that was taken from the queue, so that its own requests come too early unless
  it has been running for that long.
-/

import SiteDispatch.Proofs.Queue.Pending
import SiteDispatch.Proofs.Scheduler.Publication

namespace SiteDispatch

/-! ## Requests for an optimisation -/

namespace JobQueue

variable {q q' : JobQueue} {now latest : Int}

/-- An optimisation waits that is eligible by `latest`. -/
def OptimizesBy (q : JobQueue) (latest : Int) : Prop :=
  ∃ p ∈ q.pending, p.job = .optimizeTargetCompliance ∧ p.time ≤ latest

theorem optimizesBy_iff : q.OptimizesBy latest ↔ ∃ time ∈ q.target.keys, time ≤ latest := by
  constructor
  · rintro ⟨p, hp, hjob, hle⟩
    refine ⟨p.time, OrderedMap.mem_keys_iff_get?.2 ⟨(), ?_⟩, hle⟩
    rcases mem_pending.1 hp with ⟨request, -, hother⟩ | ⟨request, -, hother⟩ | ⟨hget, -⟩
    · rw [hjob] at hother
      cases hother
    · rw [hjob] at hother
      cases hother
    · exact hget
  · rintro ⟨time, hkey, hle⟩
    obtain ⟨⟨⟩, hget⟩ := OrderedMap.mem_keys_iff_get?.1 hkey
    exact ⟨⟨time, .optimizeTargetCompliance⟩, mem_pending.2 (.inr (.inr ⟨hget, rfl⟩)), rfl, hle⟩

/-- An optimisation is queued that was asked for at `now`: none waits, and enough time has passed
    since the last one. -/
def AdmitsOptimization (q : JobQueue) (now : Int) : Prop :=
  q.target = .empty ∧ Rested q.lastTargetRun q.complianceInterval now

theorem coalesced_eq_false_iff_admits :
    coalesced (!q.target.isEmpty) now q.lastTargetRun q.complianceInterval = false ↔
      q.AdmitsOptimization now := by
  rw [coalesced_eq_false_iff, Bool.not_eq_false', OrderedMap.isEmpty_iff, AdmitsOptimization]

theorem queueTargetOptimization_of_admits (h : q.AdmitsOptimization now) :
    q.queueTargetOptimization false now = (true, { q with target := q.target.insert now () }) := by
  rw [queueTargetOptimization, if_neg Bool.false_ne_true,
    if_neg (Bool.not_eq_true _ ▸ coalesced_eq_false_iff_admits.2 h)]

theorem queueTargetOptimization_of_not_admits (h : ¬ q.AdmitsOptimization now) :
    q.queueTargetOptimization false now = (false, q) := by
  rw [queueTargetOptimization, if_neg Bool.false_ne_true, if_pos]
  rw [← Bool.not_eq_false]
  exact fun hqueued => h (coalesced_eq_false_iff_admits.1 hqueued)

/-- A request that is heeded leaves an optimisation that is eligible at once. -/
theorem optimizesBy_queueTargetOptimization (hnow : now ≤ latest) :
    (q.queueTargetOptimization false now).2.OptimizesBy latest ↔
      q.OptimizesBy latest ∨ q.AdmitsOptimization now := by
  by_cases hadmits : q.AdmitsOptimization now
  · rw [queueTargetOptimization_of_admits hadmits]
    have hqueued : now ∈ (q.target.insert now ()).keys :=
      OrderedMap.mem_keys_iff_get?.2 ⟨(), OrderedMap.get?_insert_self ..⟩
    exact iff_of_true (optimizesBy_iff.2 ⟨now, hqueued, hnow⟩) (.inr hadmits)
  · rw [queueTargetOptimization_of_not_admits hadmits, or_iff_left hadmits]

/-- To ask twice at the same time is to ask once: what has been queued is in the way. -/
theorem queueTargetOptimization_idem (q : JobQueue) (now : Int) :
    ((q.queueTargetOptimization false now).2.queueTargetOptimization false now).2
      = (q.queueTargetOptimization false now).2 := by
  by_cases hadmits : q.AdmitsOptimization now
  · rw [queueTargetOptimization_of_admits hadmits, queueTargetOptimization_of_not_admits]
    rintro ⟨hempty, -⟩
    dsimp only at hempty
    have hget := OrderedMap.get?_insert_self q.target now ()
    rw [hempty, OrderedMap.get?_empty] at hget
    cases hget
  · rw [queueTargetOptimization_of_not_admits hadmits,
      queueTargetOptimization_of_not_admits hadmits]

/-- The interval of an optimisation begins when it is taken. -/
theorem rested_of_takeDue {start interval : Int} (hfits : Fits64 (start + interval))
    (h : q.takeDue start = (some .optimizeTargetCompliance, q')) :
    Rested q'.lastTargetRun interval now ↔ start + interval ≤ now := by
  have houtcome := q.outcome_take start
  rw [serve, h] at houtcome
  cases houtcome
  exact rested_some_iff hfits

/-- A publication is not in the way of an optimisation. -/
theorem target_queuePublication (q : JobQueue) (request : PublicationRequest) (now : Int) :
    (q.queuePublication request now).2.target = q.target := by
  rw [queuePublication]
  cases request.kind with
  | initialSchedule => rfl
  | scheduleUpdate =>
      dsimp only
      split <;> rfl

end JobQueue

/-! ## Commitments -/

/-- The device did not answer. -/
def Commitment.failed (c : Commitment) : Bool :=
  match c.answer with
  | .error _ => true
  | .ok _ => false

theorem Commitment.failed_iff {c : Commitment} : c.failed = true ↔ ∃ e, c.answer = .error e := by
  rw [failed]
  cases c.answer <;> simp

/-- Whatever else an answer leads to, only a failure reaches the queue. -/
theorem Adapter.queue_note (a : Adapter) (schedules : Schedules) (c : Commitment) (now : Int) :
    (a.note schedules c now).queue
      = if c.failed then (a.queue.queueTargetOptimization false now).2 else a.queue := by
  obtain ⟨device, task, answer⟩ := c
  rcases answer with e | result
  · rfl
  · cases result with
    | ok =>
        simp only [note, Commitment.failed]
        split
        · split <;> rfl
        · rfl
    | _ => rfl

/-- A plan is committed as if its failures had asked for an optimisation once. -/
theorem commitTasks_queue {σ : Type} (t : Transport σ) (schedules : Schedules) (now : Int) :
    ∀ (plan : List (DeviceId × Task)) (a : Adapter) (s : σ) (commitments : List Commitment)
      (a' : Adapter) (s' : σ),
      commitTasks t schedules now plan a s = .ok (commitments, a', s') →
      a'.queue = if commitments.any (·.failed) then (a.queue.queueTargetOptimization false now).2
        else a.queue := by
  intro plan
  induction plan with
  | nil =>
      rintro a s commitments a' s' h
      cases h
      rfl
  | cons e rest ih =>
      obtain ⟨device, task⟩ := e
      rintro a s commitments a' s' h
      rw [commitTasks] at h
      split at h
      · exact ih a s commitments a' s' h
      · obtain ⟨⟨reply, s₁⟩, -, h⟩ := bind_eq_ok_iff.1 h
        obtain ⟨⟨others, a₂, s₂⟩, hrest, heq⟩ := bind_eq_ok_iff.1 h
        cases heq
        rw [ih _ _ _ _ _ hrest, Adapter.queue_note, List.any_cons]
        -- The first commitment and one of the others may both have failed.
        cases hfirst : Commitment.failed ⟨device, task, reply.answer⟩ <;>
          cases hothers : others.any (·.failed) <;>
          simp [JobQueue.queueTargetOptimization_idem]

namespace SchedulerRun

variable {σ : Type} {env : Surroundings σ} {r r' : SchedulerRun σ}

theorem queue_commit {plan : TaskPlan} {schedules : Schedules} {commitments : List Commitment}
    (h : r.commit env plan schedules = .ok (commitments, r')) :
    r'.scheduler.queue
      = if commitments.any (·.failed) then
          (r.scheduler.queue.queueTargetOptimization false env.now).2
        else r.scheduler.queue := by
  obtain ⟨⟨_, adapter, devices⟩, htasks, heq⟩ := bind_eq_ok_iff.1 h
  cases heq
  exact (commitTasks_queue env.transport schedules env.now _ _ _ _ _ _ htasks :)

/-! ## Optimisations -/

/-- An optimisation in which `plan` is committed: asking the devices before that leaves the adapter
    alone, and what is found to be left of the target is noted afterwards. -/
inductive Optimizes (r : SchedulerRun σ) (env : Surroundings σ) (plan : TaskPlan) :
    List Commitment → SchedulerRun σ → Prop
  | concluded {asked committed : SchedulerRun σ} {schedules : Schedules}
      {commitments : List Commitment} {solution : TargetSolution}
      (hasked : asked.scheduler.adapter = r.scheduler.adapter)
      (hcommit : asked.commit env plan schedules = .ok (commitments, committed)) :
      Optimizes r env plan commitments
        (committed.onScheduler (·.concludeOptimization solution env.now))

theorem adapter_pruneTargets (s : Scheduler) (now : Int) :
    (s.pruneTargets now).adapter = s.adapter := by
  rw [Scheduler.pruneTargets]
  dsimp only
  split_ifs <;> rfl

theorem adapter_targetProblem {goal : ComplianceGoal}
    {posed : Except SchedulingFailure TargetProblem}
    (h : r.targetProblem env goal = .ok (posed, r')) :
    r'.scheduler.adapter = r.scheduler.adapter := by
  rw [targetProblem] at h
  dsimp only at h
  split at h
  · cases h
    rfl
  · obtain ⟨⟨schedules, asked⟩, hretrieve, heq⟩ := bind_eq_ok_iff.1 h
    cases heq
    obtain ⟨⟨retrieval, devices⟩, -, heq⟩ := bind_eq_ok_iff.1 hretrieve
    cases heq
    rfl

/-- A run of the job is such an optimisation, or it ends before anything is committed. -/
theorem optimizes_of_runJob (h : r.runJob env .optimizeTargetCompliance = .ok r') :
    r'.scheduler.adapter = r.scheduler.adapter ∨
      ∃ plan commitments, r.Optimizes env plan commitments r' := by
  rw [runJob] at h
  cases hrun : r.optimize env with
  | error halt =>
      rw [hrun] at h
      cases h
  | ok outcome =>
      rw [hrun] at h
      cases h
      obtain ⟨goal, -, hrun⟩ := bind_eq_ok_iff.1 hrun
      dsimp only at hrun
      split_ifs at hrun with hover
      · cases hrun
        exact .inl (adapter_pruneTargets _ _)
      obtain ⟨⟨posed, asked⟩, hproblem, hrun⟩ := bind_eq_ok_iff.1 hrun
      have hasked : asked.scheduler.adapter = r.scheduler.adapter :=
        (adapter_targetProblem hproblem).trans (adapter_pruneTargets _ _)
      rcases posed with failure | problem
      · cases hrun
        exact .inl hasked
      · dsimp only at hrun
        split at hrun
        · cases hrun
          exact .inl hasked
        · obtain ⟨⟨commitments, committed⟩, hcommit, heq⟩ := bind_eq_ok_iff.1 hrun
          cases heq
          exact .inr ⟨_, commitments, .concluded hasked hcommit⟩

/-- The optimisations that wait at the end are those that waited after the commitments. -/
theorem target_concludeOptimization (s : Scheduler) (solution : TargetSolution) (now : Int) :
    (s.concludeOptimization solution now).queue.target = s.queue.target := by
  rw [Scheduler.concludeOptimization]
  dsimp only
  split_ifs
  · exact JobQueue.target_queuePublication _ _ _
  · rfl

/-- If a device does not answer while the plan of an optimisation is committed, another one waits
    afterwards within the compliance interval exactly if one had been waiting, or if the
    optimisation has been running for at least the interval. The interval must end within the
    times of 64 bits. -/
theorem optimization_requeued_iff {start : Int} {queue : JobQueue} {plan : TaskPlan}
    {commitments : List Commitment} (hfits : Fits64 (start + queue.complianceInterval))
    (htake : r.scheduler.queue.takeDue start = (some .optimizeTargetCompliance, queue))
    (hrun : (r.onScheduler (·.setQueue queue)).Optimizes env plan commitments r')
    (hfailed : ∃ c ∈ commitments, ∃ e, c.answer = .error e) :
    r'.scheduler.queue.OptimizesBy (max env.now (start + queue.complianceInterval)) ↔
      queue.OptimizesBy (max env.now (start + queue.complianceInterval)) ∨
      queue.target = .empty ∧ start + queue.complianceInterval ≤ env.now := by
  cases hrun with
  | @concluded asked committed schedules _ solution hasked hcommit =>
      have hany : commitments.any (·.failed) = true := by
        obtain ⟨c, hc, hanswer⟩ := hfailed
        exact List.any_eq_true.2 ⟨c, hc, Commitment.failed_iff.2 hanswer⟩
      have hcommitted : committed.scheduler.queue
          = (queue.queueTargetOptimization false env.now).2 := by
        rw [queue_commit hcommit, if_pos hany, Scheduler.queue, hasked]
        rfl
      calc (committed.scheduler.concludeOptimization solution env.now).queue.OptimizesBy _
          ↔ (queue.queueTargetOptimization false env.now).2.OptimizesBy _ := by
            rw [JobQueue.optimizesBy_iff, JobQueue.optimizesBy_iff,
              target_concludeOptimization, hcommitted]
        _ ↔ queue.OptimizesBy _ ∨ queue.AdmitsOptimization env.now :=
            JobQueue.optimizesBy_queueTargetOptimization (Int.le_max_left ..)
        _ ↔ _ := by
            rw [JobQueue.AdmitsOptimization, JobQueue.rested_of_takeDue hfits htake]

end SchedulerRun

/-- A site without devices where an optimisation waits since midnight. -/
def SchedulerRun.optimizationDue : SchedulerRun StorageDevices :=
  withoutDevices.onScheduler (·.queueTargetOptimization false 0)

/-- Its queue once the optimisation has been taken at midnight. -/
def JobQueue.takenAtMidnight : JobQueue :=
  { JobQueue.empty 900 300 with lastTargetRun := some 0 }

/-- The plan for an hour of a device that cannot be reached. -/
def TaskPlan.unreachable : TaskPlan :=
  OrderedMap.singleton ⟨1⟩ [⟨0, 0, true, 3600, 3600, .ofList [(0, 500), (3600, 0)]⟩]

namespace SchedulerRun

/-- An optimisation that takes a quarter of an hour. -/
theorem optimization_requeued_slow :
    ∃ commitments r',
      (optimizationDue.onScheduler (·.setQueue .takenAtMidnight)).Optimizes
        (.withoutCounterparty 900 []) .unreachable commitments r' ∧
      (∃ c ∈ commitments, ∃ e, c.answer = .error e) ∧ r'.scheduler.queue.OptimizesBy 900 := by
  have htake : optimizationDue.scheduler.queue.takeDue 0
      = (some .optimizeTargetCompliance, .takenAtMidnight) := by decide
  obtain ⟨commitments, r', hrun, hfailed⟩ : ∃ commitments r',
      (optimizationDue.onScheduler (·.setQueue .takenAtMidnight)).Optimizes
        (.withoutCounterparty 900 []) .unreachable commitments r' ∧
      ∃ c ∈ commitments, ∃ e, c.answer = .error e :=
    ⟨_, _, @Optimizes.concluded _ _ _ _ _ _ .empty _ ⟨900, 3600, .unreachable, 0, 0⟩ rfl rfl,
      _, List.mem_singleton.2 rfl, _, rfl⟩
  exact ⟨commitments, r', hrun, hfailed,
    (optimization_requeued_iff (by decide) htake hrun hfailed).2 (.inr ⟨rfl, by decide⟩)⟩

/-- A device that does not answer does not always lead to another optimisation: the one that is
    being run keeps its own request out of the queue. -/
theorem failed_commitment_not_requeued :
    ∃ commitments r',
      optimizationDue.scheduler.queue.takeDue 0
        = (some .optimizeTargetCompliance, .takenAtMidnight) ∧
      (optimizationDue.onScheduler (·.setQueue .takenAtMidnight)).Optimizes
        (.withoutCounterparty 0 []) .unreachable commitments r' ∧
      (∃ c ∈ commitments, ∃ e, c.answer = .error e) ∧ r'.scheduler.queue.pending = [] :=
  ⟨_, _, by decide,
    @Optimizes.concluded _ _ _ _ _ _ .empty _ ⟨0, 3600, .unreachable, 0, 0⟩ rfl rfl,
    ⟨_, List.mem_singleton.2 rfl, _, rfl⟩, rfl⟩

end SchedulerRun

end SiteDispatch
