/-
  SiteDispatch.Proofs.Queue.History

  What a queue answers over a history of calls.

  `history` keeps every call with the queue that it meets. Publications are conserved: one that is
  queued is handed out later or still waits. What one call adds and takes is read off its outcome,
  and the rest is induction over the calls. A publication waits in the map of its kind (`Filed`),
  and so the first job of a queue is also the one of least rank among those that are eligible at
  the same time.
-/

import SiteDispatch.Proofs.Queue.Pending

namespace SiteDispatch
namespace JobQueue

/-- A call and the time at which it is made. -/
structure TimedCall where
  time : Int
  call : Call
deriving DecidableEq

/-- A call and the queue that it meets. -/
structure Exchange extends TimedCall where
  met : JobQueue
deriving DecidableEq

namespace Exchange

def answer (e : Exchange) : Answer := (e.met.serve e.time e.call).1

/-- The queue that it leaves. -/
def left (e : Exchange) : JobQueue := (e.met.serve e.time e.call).2

/-- Whether it asks for a publication and that is queued. -/
def queues (e : Exchange) (request : PublicationRequest) : Bool :=
  e.call = .publish request ∧ e.answer = .queued true

/-- Whether it takes a job. -/
def handsOut (e : Exchange) (job : Job) : Bool := e.answer = .taken (some job)

theorem outcome (c : TimedCall) (q : JobQueue) :
    Outcome q c.time c.call (answer ⟨c, q⟩) (left ⟨c, q⟩) :=
  q.outcome_serve c.time c.call

end Exchange

/-- The exchanges of calls that are made one after the other. -/
def history (q : JobQueue) : List TimedCall → List Exchange
  | [] => []
  | c :: calls => ⟨c, q⟩ :: history (Exchange.left ⟨c, q⟩) calls

/-- The queue after them. -/
def after (q : JobQueue) : List TimedCall → JobQueue
  | [] => q
  | c :: calls => after (Exchange.left ⟨c, q⟩) calls

/-- What every call keeps holds after any number of them. -/
theorem after_invariant {P : JobQueue → Prop}
    (hkept : ∀ (c : TimedCall) (q : JobQueue), P q → P (Exchange.left ⟨c, q⟩)) :
    ∀ (calls : List TimedCall) {q : JobQueue}, P q → P (q.after calls)
  | [], _, h => h
  | c :: calls, q, h => after_invariant hkept calls (hkept c q h)

variable {q q' : JobQueue} {now : Int} {call : Call} {answer : Answer}

/-! ## Publications are conserved -/

/-- How often a job waits. -/
def waiting (q : JobQueue) (job : Job) : Nat := q.pending.countP (·.job = job)

theorem waiting_of_perm {p : PendingJob} (h : q'.pending.Perm (p :: q.pending)) (job : Job) :
    q'.waiting job = q.waiting job + if p.job = job then 1 else 0 := by
  rw [waiting, h.countP_eq, List.countP_cons, waiting]
  simp only [decide_eq_true_eq]

/-- Optimisations do not count as publications. -/
theorem waiting_publish_target (q : JobQueue) (target : OrderedMap Int Unit)
    (request : PublicationRequest) :
    ({ q with target := target } : JobQueue).waiting (.publish request)
      = q.waiting (.publish request) := by
  simp [waiting, pending, List.countP_append, List.countP_map, Function.comp_def]

/-- A publication comes to the waiting ones when it is queued and leaves them when it is taken. -/
theorem Outcome.waiting_publish (h : Outcome q now call answer q')
    (request : PublicationRequest) :
    (if call = .publish request ∧ answer = .queued true then 1 else 0)
        + q.waiting (.publish request)
      = (if answer = .taken (some (.publish request)) then 1 else 0)
        + q'.waiting (.publish request) := by
  cases h with
  | optimizeDropped => simp
  | optimizeQueued => simp [waiting_publish_target]
  | initialQueued hkind hfree =>
      rw [waiting_of_perm (pending_insert_initial hfree _)]
      simp [Nat.add_comm]
  | updateDropped => simp
  | updateQueued hkind halone =>
      rw [waiting_of_perm (pending_insert_update (by rw [halone, OrderedMap.get?_empty]) _)]
      simp [Nat.add_comm]
  | nothingDue => simp
  | initialTaken hdue hfirst hget =>
      rw [waiting_of_perm (pending_erase_initial hget)]
      simp [Nat.add_comm]
  | updateTaken hdue hfirst hinitial hget =>
      rw [waiting_of_perm (pending_erase_update now hget)]
      simp [Nat.add_comm]
  | targetTaken hdue hfirst hinitial hupdate hget =>
      rw [waiting_of_perm (pending_erase_target now hget)]
      simp

/-- What is queued is handed out or waits. -/
theorem history_conserves (request : PublicationRequest) :
    ∀ (calls : List TimedCall) (q : JobQueue),
      (q.history calls).countP (·.queues request) + q.waiting (.publish request)
        = (q.history calls).countP (·.handsOut (.publish request))
          + (q.after calls).waiting (.publish request)
  | [], q => by simp [history, after]
  | c :: calls, q => by
      have hstep := (Exchange.outcome c q).waiting_publish request
      have hrest := history_conserves request calls (Exchange.left ⟨c, q⟩)
      simp only [history, after, List.countP_cons, Exchange.queues, Exchange.handsOut,
        decide_eq_true_eq] at hstep hrest ⊢
      omega

/-! ## Jobs leave in order -/

/-- Every publication waits in the map of its kind. -/
structure Filed (q : JobQueue) : Prop where
  initial : ∀ time request, q.initial.get? time = some request → request.kind = .initialSchedule
  update : ∀ time request, q.update.get? time = some request → request.kind = .scheduleUpdate

theorem filed_empty (complianceInterval updateInterval : Int) :
    (empty complianceInterval updateInterval).Filed :=
  ⟨fun _ _ h => (by cases h), fun _ _ h => (by cases h)⟩

theorem Filed.insert_initial (hq : q.Filed) {time : Int} {request : PublicationRequest}
    (hkind : request.kind = .initialSchedule) :
    Filed { q with initial := q.initial.insert time request } := by
  refine ⟨fun t r h => ?_, hq.update⟩
  rw [OrderedMap.get?_insert] at h
  split at h
  · cases h
    exact hkind
  · exact hq.initial t r h

theorem Filed.insert_update (hq : q.Filed) {time : Int} {request : PublicationRequest}
    (hkind : request.kind = .scheduleUpdate) :
    Filed { q with update := q.update.insert time request } := by
  refine ⟨hq.initial, fun t r h => ?_⟩
  rw [OrderedMap.get?_insert] at h
  split at h
  · cases h
    exact hkind
  · exact hq.update t r h

/-- What is taken out of a map leaves the others, and what is put in is of its kind. -/
theorem Outcome.filed (h : Outcome q now call answer q') (hq : q.Filed) : q'.Filed := by
  have herased : ∀ {map : OrderedMap Int PublicationRequest} {time t : Int}
      {request : PublicationRequest}, (map.erase time).get? t = some request →
        map.get? t = some request := by
    intro map time t request hget
    rw [OrderedMap.get?_erase] at hget
    split at hget
    · cases hget
    · exact hget
  cases h with
  | optimizeDropped | updateDropped | nothingDue => exact hq
  | optimizeQueued => exact ⟨hq.initial, hq.update⟩
  | initialQueued hkind => exact hq.insert_initial hkind
  | updateQueued hkind => exact hq.insert_update hkind
  | initialTaken => exact ⟨fun t r h => hq.initial t r (herased h), hq.update⟩
  | updateTaken => exact ⟨hq.initial, fun t r h => hq.update t r (herased h)⟩
  | targetTaken => exact ⟨hq.initial, hq.update⟩

theorem Filed.after (hq : q.Filed) (calls : List TimedCall) : (q.after calls).Filed :=
  after_invariant (fun c q => (Exchange.outcome c q).filed) calls hq

theorem takeDue_isSome_iff (q : JobQueue) (now : Int) :
    (q.takeDue now).1.isSome = true ↔ ∃ p ∈ q.pending, p.time ≤ now := by
  have h : Outcome q now .take (.taken (q.takeDue now).1) (q.takeDue now).2 := q.outcome_take now
  generalize (q.takeDue now).1 = job, (q.takeDue now).2 = left at h ⊢
  cases h with
  | nothingDue hlater =>
      refine iff_of_false (by simp) ?_
      rintro ⟨p, hp, hdue⟩
      exact absurd (hlater p hp) (Int.not_lt.2 hdue)
  | initialTaken hdue hfirst hget =>
      exact iff_of_true rfl ⟨⟨_, _⟩, mem_pending.2 (.inl ⟨_, hget, rfl⟩), hdue⟩
  | updateTaken hdue hfirst hinitial hget =>
      exact iff_of_true rfl ⟨⟨_, _⟩, mem_pending.2 (.inr (.inl ⟨_, hget, rfl⟩)), hdue⟩
  | targetTaken hdue hfirst hinitial hupdate hget =>
      exact iff_of_true rfl ⟨⟨_, _⟩, mem_pending.2 (.inr (.inr ⟨hget, rfl⟩)), hdue⟩

/-- The job that is taken is a first one of those that wait, and the others stay. -/
theorem Filed.takeDue_first (hq : q.Filed) {job : Job} (h : q.takeDue now = (some job, q')) :
    ∃ p ∈ q.pending, p.job = job ∧ p.time ≤ now ∧ (∀ p' ∈ q.pending, p.Precedes p') ∧
      q.pending.Perm (p :: q'.pending) := by
  have houtcome : Outcome q now .take (.taken (q.takeDue now).1) (q.takeDue now).2 :=
    q.outcome_take now
  rw [h] at houtcome
  -- Jobs at the same time compare by rank only.
  have hprecedes : ∀ {p : PendingJob}, (∀ p' ∈ q.pending, p.time ≤ p'.time) →
      (∀ p' ∈ q.pending, p'.time = p.time → p.job.rank ≤ p'.job.rank) →
      ∀ p' ∈ q.pending, p.Precedes p' := by
    intro p hfirst hrank p' hp'
    rcases Int.lt_or_eq_of_le (hfirst p' hp') with hlt | heq
    · exact .inl hlt
    · exact .inr ⟨heq, hrank p' hp' heq.symm⟩
  cases houtcome with
  | @initialTaken request time hdue hfirst hget =>
      have hrank : (Job.publish request).rank = 0 := by
        rw [Job.rank, hq.initial _ _ hget]
      refine ⟨⟨time, .publish request⟩, mem_pending.2 (.inl ⟨_, hget, rfl⟩), rfl, hdue,
        hprecedes hfirst fun p' _ _ => ?_, pending_erase_initial hget⟩
      exact hrank ▸ Nat.zero_le _
  | @updateTaken request time hdue hfirst hinitial hget =>
      have hrank : ∀ r t, q.update.get? t = some r → (Job.publish r).rank = 1 := by
        intro r t hr
        rw [Job.rank, hq.update _ _ hr]
      refine ⟨⟨time, .publish request⟩, mem_pending.2 (.inr (.inl ⟨_, hget, rfl⟩)), rfl, hdue,
        hprecedes hfirst fun p' hp' htime => ?_, pending_erase_update now hget⟩
      rw [hrank _ _ hget]
      rcases mem_pending.1 hp' with ⟨r, hr, -⟩ | ⟨r, hr, hjob⟩ | ⟨-, hjob⟩
      · rw [htime, hinitial] at hr
        cases hr
      · exact Nat.le_of_eq (hjob ▸ hrank _ _ hr).symm
      · rw [hjob]
        decide
  | @targetTaken time hdue hfirst hinitial hupdate hget =>
      refine ⟨⟨time, .optimizeTargetCompliance⟩, mem_pending.2 (.inr (.inr ⟨hget, rfl⟩)), rfl,
        hdue, hprecedes hfirst fun p' hp' htime => ?_, pending_erase_target now hget⟩
      rcases mem_pending.1 hp' with ⟨r, hr, -⟩ | ⟨r, hr, -⟩ | ⟨-, hjob⟩
      · rw [htime, hinitial] at hr
        cases hr
      · rw [htime, hupdate] at hr
        cases hr
      · exact Nat.le_of_eq (congrArg Job.rank hjob).symm

/-- After any calls to a queue that began without jobs, every publication that was queued has been
    handed out or waits, as often as it was queued, and the next job is handed out if and only if
    one is eligible: a first one by time and rank, while all others stay. -/
theorem publications_conserved_in_order (complianceInterval updateInterval : Int)
    (calls : List TimedCall) :
    let q := (empty complianceInterval updateInterval).after calls
    let past := (empty complianceInterval updateInterval).history calls
    (∀ request, past.countP (·.queues request)
        = past.countP (·.handsOut (.publish request)) + q.waiting (.publish request)) ∧
      ∀ now, ((q.takeDue now).1.isSome = true ↔ ∃ p ∈ q.pending, p.time ≤ now) ∧
        ∀ job q', q.takeDue now = (some job, q') →
          ∃ p ∈ q.pending, p.job = job ∧ p.time ≤ now ∧ (∀ p' ∈ q.pending, p.Precedes p') ∧
            q.pending.Perm (p :: q'.pending) := by
  have hfiled := (filed_empty complianceInterval updateInterval).after calls
  refine ⟨fun request => ?_, fun now => ⟨takeDue_isSome_iff _ now, fun job q' h => ?_⟩⟩
  · have h := history_conserves request calls (empty complianceInterval updateInterval)
    rwa [show (empty complianceInterval updateInterval).waiting (.publish request) = 0 from rfl,
      Nat.add_zero] at h
  · exact hfiled.takeDue_first h

/-- Of jobs that are asked for in the same second an initial publication goes first and an
    optimisation last; another initial publication waits for the next second. -/
example :
    let initial : PublicationRequest := ⟨.initialSchedule, 86400, 172800⟩
    let update : PublicationRequest := ⟨.scheduleUpdate, 0, 86400⟩
    let calls := [⟨0, .optimize false⟩, ⟨0, .publish update⟩, ⟨0, .publish initial⟩,
      ⟨0, .publish initial⟩, ⟨1, .take⟩, ⟨1, .take⟩, ⟨1, .take⟩, ⟨1, .take⟩]
    (((empty 900 300).history calls).drop 4).map Exchange.answer
      = [.taken (some (.publish initial)), .taken (some (.publish update)),
        .taken (some .optimizeTargetCompliance), .taken (some (.publish initial))] := by
  decide

end JobQueue
end SiteDispatch
