/-
  SiteDispatch.Proofs.Queue.RateLimit

  How far apart jobs of one kind are handed out.

  Optimisations and updates each have a lane of their own, with a least time between two runs. The
  limit is applied when a job is queued, against the last run at that time. `Effect` says what a
  call comes to in one lane, and from it follows a bound on the jobs that are handed out within the
  interval after a run: they were waiting when that run began. In a lane in which at most one job
  waits there are none, and any two runs are an interval apart. So it is with updates. A forced
  optimisation does not look at those that wait, and two of them can run in the same second.
-/

import Mathlib.Data.List.Perm.Subperm
import SiteDispatch.Proofs.Queue.History

namespace SiteDispatch

/-! ## Lanes -/

/-- The jobs that have a least time between two runs. -/
inductive Lane
  | optimizations
  | updates
deriving DecidableEq

/-- The lane of a job. Initial publications have none. -/
def Job.lane? : Job → Option Lane
  | .optimizeTargetCompliance => some .optimizations
  | .publish request =>
    match request.kind with
    | .initialSchedule => none
    | .scheduleUpdate => some .updates

namespace JobQueue

/-- The jobs that wait in a lane. -/
def lane (q : JobQueue) (lane : Lane) : List PendingJob :=
  q.pending.filter (·.job.lane? = some lane)

def lastRun (q : JobQueue) : Lane → Option Int
  | .optimizations => q.lastTargetRun
  | .updates => q.lastUpdateRun

/-- Least time between two runs. -/
def interval (q : JobQueue) : Lane → Int
  | .optimizations => q.complianceInterval
  | .updates => q.updateInterval

/-- Whether a job of the lane is handed out. -/
def Answer.runs (lane : Lane) : Answer → Bool
  | .taken (some job) => job.lane? = some lane
  | _ => false

/-- Whether a job of the lane is asked for no matter what waits. -/
def Call.forces (lane : Lane) : Call → Bool
  | .optimize force => force ∧ lane = .optimizations
  | _ => false

namespace Exchange

/-- Whether it takes a job of the lane. -/
def runs (e : Exchange) (lane : Lane) : Bool := e.answer.runs lane

/-- Two runs in a lane are at least `interval` apart. -/
def Spaced (lane : Lane) (interval : Int) (e e' : Exchange) : Prop :=
  e.runs lane = true → e'.runs lane = true → e.time + interval ≤ e'.time

instance (lane : Lane) (interval : Int) : DecidableRel (Spaced lane interval) :=
  fun e e' => inferInstanceAs (Decidable (e.runs lane = true → e'.runs lane = true → _))

end Exchange

/-- The calls are made one after the other. -/
def Chronological (calls : List TimedCall) : Prop := calls.Pairwise (·.time ≤ ·.time)

instance (calls : List TimedCall) : Decidable (Chronological calls) :=
  inferInstanceAs (Decidable (calls.Pairwise _))

variable {q q' : JobQueue} {now : Int} {call : Call} {answer : Answer} {lane : Lane}

/-- What a call at `now` comes to in a lane: nothing new, one more job that waits, or one that is
    handed out. -/
inductive Effect (lane : Lane) (q : JobQueue) (now : Int) (call : Call) (answer : Answer)
    (q' : JobQueue) : Prop
  | passed (hruns : answer.runs lane = false) (hlane : (q'.lane lane).Subperm (q.lane lane))
      (hlast : q'.lastRun lane = q.lastRun lane)
  | queued {p : PendingJob} (hruns : answer.runs lane = false)
      (halone : call.forces lane = false → q.lane lane = [])
      (hrested : Rested (q.lastRun lane) (q.interval lane) p.time)
      (hlane : (q'.lane lane).Subperm (p :: q.lane lane))
      (hlast : q'.lastRun lane = q.lastRun lane)
  | handedOut {p : PendingJob} (hruns : answer.runs lane = true) (hdue : p.time ≤ now)
      (hlane : (q.lane lane).Perm (p :: q'.lane lane)) (hlast : q'.lastRun lane = some now)

theorem lane_subperm_cons {p : PendingJob} (h : q'.pending.Subperm (p :: q.pending)) :
    (q'.lane lane).Subperm (p :: q.lane lane) := by
  refine (h.filter _).trans (List.Sublist.subperm ?_)
  rw [List.filter_cons]
  split
  · exact List.Sublist.refl _
  · exact List.sublist_cons_self _ _

theorem lane_subperm {p : PendingJob} (h : q'.pending.Subperm (p :: q.pending))
    (hp : p.job.lane? ≠ some lane) : (q'.lane lane).Subperm (q.lane lane) := by
  have hfilter := h.filter fun p => decide (p.job.lane? = some lane)
  rwa [List.filter_cons_of_neg (by simpa using hp)] at hfilter

theorem lane_perm {p : PendingJob} (h : q.pending.Perm (p :: q'.pending))
    (hp : p.job.lane? = some lane) : (q.lane lane).Perm (p :: q'.lane lane) := by
  have hfilter := h.filter fun p => decide (p.job.lane? = some lane)
  rwa [List.filter_cons_of_pos (by simpa using hp)] at hfilter

theorem lane_subperm_of_taken {p : PendingJob} (h : q.pending.Perm (p :: q'.pending)) :
    (q'.lane lane).Subperm (q.lane lane) :=
  ((List.sublist_cons_self _ _).subperm.trans h.symm.subperm).filter _

theorem lane_eq_nil (h : ∀ p ∈ q.pending, p.job.lane? ≠ some lane) : q.lane lane = [] :=
  List.filter_eq_nil_iff.2 fun p hp => by simpa using h p hp

theorem lane_optimizations_eq_nil (h : q.target = .empty) : q.lane .optimizations = [] := by
  refine lane_eq_nil fun p hp => ?_
  rcases mem_pending.1 hp with ⟨r, -, hjob⟩ | ⟨r, -, hjob⟩ | ⟨hget, -⟩
  · rw [hjob, Job.lane?]
    cases r.kind <;> simp
  · rw [hjob, Job.lane?]
    cases r.kind <;> simp
  · rw [h] at hget
    cases hget

theorem Filed.lane_updates_eq_nil (hq : q.Filed) (h : q.update = .empty) :
    q.lane .updates = [] := by
  refine lane_eq_nil fun p hp => ?_
  rcases mem_pending.1 hp with ⟨r, hget, hjob⟩ | ⟨r, hget, -⟩ | ⟨-, hjob⟩
  · simp [hjob, Job.lane?, hq.initial _ _ hget]
  · rw [h] at hget
    cases hget
  · simp [hjob, Job.lane?]

/-- An optimisation that is queued comes to the others or falls together with one of them. -/
theorem pending_insert_target_subperm (q : JobQueue) (time : Int) :
    ({ q with target := q.target.insert time () } : JobQueue).pending.Subperm
      (⟨time, .optimizeTargetCompliance⟩ :: q.pending) := by
  cases hget : q.target.get? time with
  | none => exact (pending_insert_target hget).subperm
  | some _ =>
      rw [OrderedMap.insert_eq_self hget]
      exact (List.sublist_cons_self _ _).subperm

/-- Every outcome has its effect on each lane. -/
theorem Outcome.effect (h : Outcome q now call answer q') (hq : q.Filed) (lane : Lane) :
    Effect lane q now call answer q' := by
  cases h with
  | optimizeDropped | updateDropped | nothingDue =>
      exact .passed rfl (List.Perm.refl _).subperm rfl
  | @optimizeQueued force time halone hrested =>
      -- An optimisation is of no concern to updates, and the other way round below.
      have hpending := pending_insert_target_subperm q time
      cases lane with
      | optimizations =>
          refine .queued (p := ⟨time, _⟩) rfl (fun hforce => lane_optimizations_eq_nil (halone ?_))
            hrested (lane_subperm_cons hpending) rfl
          simpa [Call.forces] using hforce
      | updates => exact .passed rfl (lane_subperm hpending (by simp [Job.lane?])) rfl
  | @initialQueued request time hkind hfree =>
      refine .passed rfl (lane_subperm (pending_insert_initial hfree _).subperm ?_) ?_
      · simp [Job.lane?, hkind]
      · cases lane <;> rfl
  | @updateQueued request hkind halone hrested =>
      have hfree : q.update.get? now = none := by rw [halone, OrderedMap.get?_empty]
      have hpending := (pending_insert_update hfree request).subperm
      cases lane with
      | optimizations =>
          exact .passed rfl (lane_subperm hpending (by simp [Job.lane?, hkind])) rfl
      | updates =>
          exact .queued (p := ⟨now, _⟩) rfl (fun _ => hq.lane_updates_eq_nil halone) hrested
            (lane_subperm_cons hpending) rfl
  | @initialTaken request time hdue hfirst hget =>
      -- The map in which a publication waits tells its kind.
      have hjob : (Job.publish request).lane? = none := by
        rw [Job.lane?, hq.initial _ _ hget]
      refine .passed (by simp [Answer.runs, hjob])
        (lane_subperm_of_taken (pending_erase_initial hget)) ?_
      cases lane <;> rfl
  | @updateTaken request time hdue hfirst hinitial hget =>
      have hjob : (Job.publish request).lane? = some .updates := by
        rw [Job.lane?, hq.update _ _ hget]
      have hpending := pending_erase_update now hget
      cases lane with
      | optimizations =>
          exact .passed (by simp [Answer.runs, hjob]) (lane_subperm_of_taken hpending) rfl
      | updates =>
          exact .handedOut (by simp [Answer.runs, hjob]) hdue (lane_perm hpending hjob) rfl
  | @targetTaken time hdue hfirst hinitial hupdate hget =>
      have hpending := pending_erase_target now hget
      cases lane with
      | optimizations => exact .handedOut rfl hdue (lane_perm hpending rfl) rfl
      | updates => exact .passed rfl (lane_subperm_of_taken hpending) rfl

/-- A job that is handed out was waiting and is the last run. -/
theorem Effect.of_runs (h : Effect lane q now call answer q') (hruns : answer.runs lane = true) :
    ∃ p, (q.lane lane).Perm (p :: q'.lane lane) ∧ q'.lastRun lane = some now := by
  cases h with
  | passed hnone => exact absurd (hruns.symm.trans hnone) (by decide)
  | queued hnone => exact absurd (hruns.symm.trans hnone) (by decide)
  | @handedOut p _ _ hlane hlast => exact ⟨p, hlane, hlast⟩

theorem Outcome.interval_eq (h : Outcome q now call answer q') (lane : Lane) :
    q'.interval lane = q.interval lane := by
  cases h <;> cases lane <;> rfl

theorem interval_after (q : JobQueue) (calls : List TimedCall) (lane : Lane) :
    (q.after calls).interval lane = q.interval lane :=
  after_invariant (P := fun q' => q'.interval lane = q.interval lane)
    (fun c q' h => ((Exchange.outcome c q').interval_eq lane).trans h) calls rfl

/-! ## Runs within an interval -/

/-- One call: what it hands out early leaves the jobs that are eligible early, and what it queues
    is not one of them. -/
theorem Effect.early_le (h : Effect lane q now call answer q') {start last : Int}
    (hlast : q.lastRun lane = some last) (hstart : start ≤ last)
    (hfits : Fits64 (last + q.interval lane)) :
    (if answer.runs lane = true ∧ now < start + q.interval lane then 1 else 0)
        + (q'.lane lane).countP (·.time < start + q.interval lane)
      ≤ (q.lane lane).countP (·.time < start + q.interval lane) := by
  cases h with
  | passed hruns hlane =>
      simpa [hruns] using hlane.countP_le fun p => p.time < start + q.interval lane
  | @queued p hruns halone hrested hlane =>
      -- The limit has been applied, so that the new job is not an early one.
      rw [hlast, rested_some_iff hfits] at hrested
      have hcount := hlane.countP_le fun p => decide (p.time < start + q.interval lane)
      rw [List.countP_cons_of_neg (by simp only [decide_eq_true_eq]; omega)] at hcount
      simpa [hruns] using hcount
  | @handedOut p hruns hdue hlane =>
      -- What runs early was eligible early.
      rw [hlane.countP_eq, List.countP_cons, Nat.add_comm]
      refine Nat.add_le_add_left ?_ _
      simp only [hruns, true_and, decide_eq_true_eq]
      split <;> split <;> omega

/-- The last run is the one before the call or the call itself. -/
theorem Effect.exists_lastRun (h : Effect lane q now call answer q') {P : Int → Prop} {last : Int}
    (hlast : q.lastRun lane = some last) (hbefore : P last) (hnow : P now) :
    ∃ last', q'.lastRun lane = some last' ∧ P last' := by
  cases h with
  | passed _ _ hsame => exact ⟨last, hsame.trans hlast, hbefore⟩
  | queued _ _ _ _ hsame => exact ⟨last, hsame.trans hlast, hbefore⟩
  | handedOut _ _ _ hset => exact ⟨now, hset, hnow⟩

/-- All calls: the jobs that are handed out early were waiting. -/
theorem history_early_le {start : Int} (lane : Lane) : ∀ (calls : List TimedCall) {q : JobQueue}
    {last : Int}, q.Filed → q.lastRun lane = some last →
      start ≤ last ∧ Fits64 (last + q.interval lane) →
      (∀ c ∈ calls, start ≤ c.time ∧ Fits64 (c.time + q.interval lane)) →
        (q.history calls).countP (fun e => e.runs lane ∧ e.time < start + q.interval lane)
          ≤ (q.lane lane).countP (·.time < start + q.interval lane)
  | [], _, _, _, _, _, _ => Nat.zero_le _
  | c :: calls, q, last, hq, hlast, hstart, htimes => by
      have houtcome := Exchange.outcome c q
      have heffect := houtcome.effect hq lane
      obtain ⟨hc, htimes⟩ := List.forall_mem_cons.1 htimes
      -- Runs only move the limit on, so that the first call leaves what the others need.
      obtain ⟨last', hlast', hstart'⟩ := heffect.exists_lastRun
        (P := fun t => start ≤ t ∧ Fits64 (t + q.interval lane)) hlast hstart hc
      have hfirst : (if Exchange.runs ⟨c, q⟩ lane = true ∧ c.time < start + q.interval lane
          then 1 else 0) + _ ≤ _ := heffect.early_le hlast hstart.1 hstart.2
      rw [← houtcome.interval_eq lane] at hstart' htimes
      have hrest := history_early_le lane calls (houtcome.filed hq) hlast' hstart' htimes
      rw [houtcome.interval_eq lane] at hrest
      simp only [history, List.countP_cons, decide_eq_true_eq]
      omega

/-- After a run of a lane, the jobs of the lane that are handed out within the interval were
    waiting when it began. -/
theorem early_le_of_runs (hq : q.Filed) {c : TimedCall} (hruns : Exchange.runs ⟨c, q⟩ lane = true)
    (hfits : Fits64 (c.time + q.interval lane)) {calls : List TimedCall}
    (htimes : ∀ c' ∈ calls, c.time ≤ c'.time ∧ Fits64 (c'.time + q.interval lane)) :
    ((Exchange.left ⟨c, q⟩).history calls).countP
        (fun e => e.runs lane ∧ e.time < c.time + q.interval lane)
      ≤ ((Exchange.left ⟨c, q⟩).lane lane).countP (·.time < c.time + q.interval lane) := by
  have houtcome := Exchange.outcome c q
  obtain ⟨_, -, hlast⟩ := (houtcome.effect hq lane).of_runs hruns
  rw [← houtcome.interval_eq lane] at hfits htimes ⊢
  exact history_early_le lane calls (houtcome.filed hq) hlast ⟨Int.le_refl _, hfits⟩ htimes

/-! ## Lanes with a single job -/

/-- A lane has at most one job if none is forced into it while one waits. -/
theorem Effect.length_le_one (h : Effect lane q now call answer q')
    (hforced : call.forces lane = true → q.lane lane = []) (hone : (q.lane lane).length ≤ 1) :
    (q'.lane lane).length ≤ 1 := by
  cases h with
  | passed _ hlane => exact Nat.le_trans hlane.length_le hone
  | queued _ halone _ hlane =>
      -- Forced or not, it finds nothing that waits.
      have hempty : q.lane lane = [] := by
        cases hcall : call.forces lane with
        | true => exact hforced hcall
        | false => exact halone hcall
      rw [hempty] at hlane
      exact hlane.length_le
  | handedOut _ _ hlane =>
      have hlength := hlane.length_eq
      rw [List.length_cons] at hlength
      omega

/-- Nothing waits in such a lane once its job has been handed out. -/
theorem Effect.eq_nil_of_runs (h : Effect lane q now call answer q')
    (hruns : answer.runs lane = true) (hone : (q.lane lane).length ≤ 1) : q'.lane lane = [] := by
  obtain ⟨_, hlane, -⟩ := h.of_runs hruns
  have hlength := hlane.length_eq
  rw [List.length_cons] at hlength
  exact List.eq_nil_of_length_eq_zero (by omega)

/-- Its runs are an interval apart. -/
theorem pairwise_spaced (lane : Lane) : ∀ (calls : List TimedCall) {q : JobQueue}, q.Filed →
    Chronological calls → (∀ c ∈ calls, Fits64 (c.time + q.interval lane)) →
      (∀ e ∈ q.history calls, e.call.forces lane = true → e.met.lane lane = []) →
        (q.lane lane).length ≤ 1 →
          (q.history calls).Pairwise (Exchange.Spaced lane (q.interval lane))
  | [], _, _, _, _, _, _ => List.Pairwise.nil
  | c :: calls, q, hq, hchronological, hfits, hforced, hone => by
      have houtcome := Exchange.outcome c q
      have heffect := houtcome.effect hq lane
      obtain ⟨htimes, hrest⟩ := List.pairwise_cons.1 hchronological
      obtain ⟨hfit, hfits⟩ := List.forall_mem_cons.1 hfits
      obtain ⟨hfirst, hforced⟩ := List.forall_mem_cons.1 hforced
      refine List.pairwise_cons.2 ⟨fun e he hruns hruns' => ?_, ?_⟩
      · -- Nothing was waiting that could run early.
        have hcount := early_le_of_runs hq hruns hfit fun c' hc' => ⟨htimes c' hc', hfits c' hc'⟩
        rw [heffect.eq_nil_of_runs hruns hone, List.countP_nil, Nat.le_zero,
          List.countP_eq_zero] at hcount
        have hearly := hcount e he
        simp only [hruns', true_and, decide_eq_true_eq] at hearly
        exact Int.not_lt.1 hearly
      · rw [← houtcome.interval_eq lane] at hfits ⊢
        exact pairwise_spaced lane calls (houtcome.filed hq) hrest hfits hforced
          (heffect.length_le_one hfirst hone)

/-! ## Updates -/

theorem Call.eq_of_forces (h : call.forces .optimizations = true) : call = .optimize true := by
  cases call with
  | optimize force =>
      simp only [Call.forces, decide_eq_true_eq] at h
      rw [h.1]
  | publish request => cases h
  | take => cases h

theorem restoreLastTargetRun_filed (hq : q.Filed) (time : Int) :
    (q.restoreLastTargetRun time).Filed := by
  rw [restoreLastTargetRun]
  split
  · exact ⟨hq.initial, hq.update⟩
  · exact hq

theorem interval_restoreLastTargetRun (q : JobQueue) (time : Int) :
    (q.restoreLastTargetRun time).interval lane = q.interval lane := by
  rw [restoreLastTargetRun]
  split
  · cases lane <;> rfl
  · rfl

theorem lane_restoreLastTargetRun (q : JobQueue) (time : Int) :
    (q.restoreLastTargetRun time).lane lane = q.lane lane := by
  rw [restoreLastTargetRun]
  split <;> rfl

/-- After an optimisation is handed out, as many as are handed out within the interval were waiting
    already and eligible too early. If no optimisation is forced while one waits, any two that are
    handed out are at least the least time between two optimisations apart. What that time adds to
    the clock has to fit 64 bits. -/
theorem optimizations_spaced_unless_forced (complianceInterval updateInterval restored : Int)
    (calls : List TimedCall) (h : Chronological calls)
    (hfits : ∀ c ∈ calls, Fits64 (c.time + complianceInterval)) :
    let q := (empty complianceInterval updateInterval).restoreLastTargetRun restored
    (∀ calls₁ c calls₂, calls = calls₁ ++ c :: calls₂ →
      let e : Exchange := ⟨c, q.after calls₁⟩
      e.runs .optimizations = true →
        (e.left.history calls₂).countP
            (fun e' => e'.runs .optimizations ∧ e'.time < c.time + complianceInterval)
          ≤ (e.left.lane .optimizations).countP (·.time < c.time + complianceInterval)) ∧
    ((∀ e ∈ q.history calls, e.call = .optimize true → e.met.lane .optimizations = []) →
      (q.history calls).Pairwise (Exchange.Spaced .optimizations complianceInterval)) := by
  intro q
  have hq : q.Filed := restoreLastTargetRun_filed (filed_empty _ _) restored
  have hinterval : q.interval .optimizations = complianceInterval :=
    interval_restoreLastTargetRun _ restored
  refine ⟨?_, fun hforced => ?_⟩
  · intro calls₁ c calls₂ hcalls e hruns
    have htimes : ∀ c' ∈ calls₂, c.time ≤ c'.time := by
      rw [Chronological, hcalls, List.pairwise_append] at h
      exact (List.pairwise_cons.1 h.2.1).1
    have hafter : (q.after calls₁).interval .optimizations = complianceInterval :=
      (interval_after q calls₁ _).trans hinterval
    rw [hcalls, ← hafter] at hfits
    have hearly := early_le_of_runs (hq.after calls₁) hruns (hfits c (by simp))
      fun c' hc' => ⟨htimes c' hc', hfits c' (by simp [hc'])⟩
    rwa [hafter] at hearly
  · have hempty : q.lane .optimizations = [] := lane_restoreLastTargetRun _ restored
    rw [← hinterval] at hfits ⊢
    refine pairwise_spaced .optimizations calls hq h hfits (fun e he hforces => hforced e he ?_) ?_
    · exact Call.eq_of_forces hforces
    · rw [hempty]
      exact Nat.zero_le 1

/-- Optimisations are asked for, forced or not, while none waits. -/
def separateRequests : List TimedCall :=
  [⟨1000, .optimize true⟩, ⟨1800, .take⟩, ⟨1900, .optimize true⟩, ⟨2000, .optimize false⟩,
    ⟨2700, .take⟩]

/-- Optimisations are forced in two consecutive seconds. -/
def forcedTwice : List TimedCall :=
  [⟨1000000, .optimize true⟩, ⟨1000001, .optimize true⟩, ⟨1000001, .take⟩, ⟨1000001, .take⟩]

theorem optimizations_spaced_unless_forced_separate :
    (let q := (empty 900 300).restoreLastTargetRun 900;
      (q.history separateRequests).map (·.runs .optimizations)
          = [false, true, false, false, true] ∧
        (q.history separateRequests).Pairwise (Exchange.Spaced .optimizations 900)) ∧
      (let e : Exchange := ⟨⟨1000001, .take⟩, (empty 900 300).after (forcedTwice.take 2)⟩;
        (e.left.history [⟨1000001, .take⟩]).countP
            (fun e' => e'.runs .optimizations ∧ e'.time < 1000901)
          ≤ (e.left.lane .optimizations).countP (·.time < 1000901)) :=
  ⟨⟨by decide,
    (optimizations_spaced_unless_forced 900 300 900 separateRequests (by decide)
      (by decide)).2 (by decide)⟩,
    (optimizations_spaced_unless_forced 900 300 0 forcedTwice (by decide) (by decide)).1
      (forcedTwice.take 2) ⟨1000001, .take⟩ [⟨1000001, .take⟩] rfl (by decide)⟩

/-- Both wait, since none has run, and both run in the same second. -/
theorem forced_optimizations_run_together :
    Chronological forcedTwice ∧
      ¬ ((empty 900 300).history forcedTwice).Pairwise (Exchange.Spaced .optimizations 900) := by
  decide

end JobQueue
end SiteDispatch
