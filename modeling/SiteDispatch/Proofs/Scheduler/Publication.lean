/-
  SiteDispatch.Proofs.Scheduler.Publication

  How a publication ends, which failed publications are tried again, and which settled ones.

  Planning a window changes devices and adaptable tasks, but not what the scheduler has to
  remember; that changes only when the window is over or the counterparty has answered. So a
  failed request is kept for another attempt exactly if its plan got as far as the counterparty,
  and a settled one that was kept before stays exactly if its plan did not get there.
-/

import SiteDispatch.Calendar.ZoneTable
import SiteDispatch.Proofs.Device.Offer
import SiteDispatch.Scheduler.Event
import SiteDispatch.Transport.Local

namespace SiteDispatch

/-! ## Incomplete publications -/

namespace SchedulerState

theorem mem_markIncomplete {s : SchedulerState} {request other : PublicationRequest} :
    other ∈ (s.markIncomplete request).incomplete ↔ other = request ∨ other ∈ s.incomplete := by
  rw [markIncomplete]
  split_ifs with hknown
  · constructor
    · exact .inr
    · rintro (rfl | hother)
      · exact hknown
      · exact hother
  · rw [List.mem_append, List.mem_singleton, or_comm]

theorem mem_markComplete {s : SchedulerState} {request other : PublicationRequest} :
    other ∈ (s.markComplete request).incomplete ↔ other ≠ request ∧ other ∈ s.incomplete := by
  rw [markComplete, List.mem_filter, decide_eq_true_iff, and_comm]

/-- Only the list of incomplete publications changes. -/
theorem markIncomplete_eq (s : SchedulerState) (request : PublicationRequest) :
    s.markIncomplete request = { s with incomplete := (s.markIncomplete request).incomplete } := by
  rw [markIncomplete]
  split <;> rfl

end SchedulerState

/-- What has been published is not to be tried again. -/
theorem Scheduler.mem_concludePublication {s : Scheduler} {request other : PublicationRequest}
    {schedule : PublicSchedule} {stop now : Int} :
    other ∈ (s.concludePublication request schedule stop now).state.incomplete ↔
      other ≠ request ∧ other ∈ s.state.incomplete := by
  rw [← SchedulerState.mem_markComplete, concludePublication]
  cases request.kind <;> rfl

/-! ## Planning a window -/

/-- A run that has changed devices and the adapter at most: what the scheduler remembers, its file
    and what has been published are as before. -/
structure SchedulerRun.KeepsRecords {σ : Type} (r r' : SchedulerRun σ) : Prop where
  config : r'.scheduler.config = r.scheduler.config
  state : r'.scheduler.state = r.scheduler.state
  file : r'.scheduler.file = r.scheduler.file
  published : r'.published = r.published

namespace SchedulerRun

section Planning

variable {σ : Type} {env : Surroundings σ} {r r' r'' : SchedulerRun σ} {start stop : Int}

theorem KeepsRecords.refl (r : SchedulerRun σ) : r.KeepsRecords r := ⟨rfl, rfl, rfl, rfl⟩

theorem KeepsRecords.trans (h : r.KeepsRecords r') (h' : r'.KeepsRecords r'') :
    r.KeepsRecords r'' :=
  ⟨h'.config.trans h.config, h'.state.trans h.state, h'.file.trans h.file,
    h'.published.trans h.published⟩

/-- Asking devices changes devices only. -/
theorem retrieve_keepsRecords {schedules : Schedules}
    (h : r.retrieve env start stop = .ok (schedules, r')) : r.KeepsRecords r' := by
  obtain ⟨⟨retrieval, devices⟩, -, heq⟩ := bind_eq_ok_iff.1 h
  cases heq
  exact ⟨rfl, rfl, rfl, rfl⟩

/-- Committing a plan changes devices, adaptable tasks and the queue only. -/
theorem commit_keepsRecords {plan : TaskPlan} {schedules : Schedules}
    {commitments : List Commitment} (h : r.commit env plan schedules = .ok (commitments, r')) :
    r.KeepsRecords r' := by
  obtain ⟨⟨commitments, adapter, devices⟩, -, heq⟩ := bind_eq_ok_iff.1 h
  cases heq
  exact ⟨rfl, rfl, rfl, rfl⟩

end Planning

end SchedulerRun

/-! ## Forecasts -/

theorem PowerForecast.length_resample (f : PowerForecast) (start slotLength : Int) (slots : Nat) :
    (f.resample start slotLength slots).length = slots := by
  rw [resample]
  split <;> rw [List.length_map, List.length_range]

namespace ForecastEngine

variable {kind : ForecastKind} {start slotLength : Int} {slots : Nat}

/-- Every meter that is added leaves one value per slot. -/
theorem length_power {forecasters : List Forecaster} {sum watts : List Float}
    (hsum : sum.length = slots)
    (h : power kind start slotLength slots sum forecasters = .ok watts) :
    watts.length = slots := by
  induction forecasters generalizing sum with
  | nil =>
      cases h
      exact hsum
  | cons forecaster rest ih =>
      rw [power] at h
      split at h
      · cases h
      · apply ih _ h
        rw [List.length_zipWith, PowerForecast.length_resample, hsum, Nat.min_self]

theorem length_energy {forecasters : List Forecaster} {wattHours : List Int}
    (h : energy kind forecasters start slotLength slots = .ok wattHours) :
    wattHours.length = slots := by
  rw [energy] at h
  cases hpower : power kind start slotLength slots (List.replicate slots 0.0) forecasters with
  | error e =>
      rw [hpower] at h
      cases h
  | ok watts =>
      rw [hpower] at h
      cases h
      rw [List.length_map, length_power List.length_replicate hpower]

/-- Demand and production are forecast for the same slots. -/
theorem length_both {e : ForecastEngine} {demand production : List Int}
    (h : e.both start slotLength slots = .ok (demand, production)) :
    demand.length = slots ∧ production.length = slots := by
  rw [both] at h
  split at h
  · cases h
  · cases h
  · rename_i hdemand hsupply
    cases h
    exact ⟨length_energy hdemand, length_energy hsupply⟩

end ForecastEngine

/-- Fails only as a forecast. -/
theorem ForecastEngine.both_eq_error {e : ForecastEngine} {start slotLength : Int} {slots : Nat}
    {failure : SchedulingFailure} (h : e.both start slotLength slots = .error failure) :
    ∃ cause, failure = .forecast cause := by
  rw [both] at h
  split at h <;> cases h <;> exact ⟨_, rfl⟩

/-- A window is optimised if its slots have a length. -/
theorem SelfConsumptionProblem.exists_solution_iff {p : SelfConsumptionProblem}
    (hwindow : p.start < p.stop) (hlength : p.demand.length = p.production.length)
    (timestamp : Int) :
    (∃ solution, p.solve timestamp = .ok solution) ↔ 1 ≤ p.slotLength := by
  rw [solve]
  split_ifs with hslot hempty hmismatch
  · simp only [exists_false, false_iff]
    omega
  · omega
  · exact absurd hlength hmismatch
  · exact ⟨fun _ => by omega, fun _ => ⟨_, rfl⟩⟩

namespace SchedulerRun

variable {σ : Type} {env : Surroundings σ} {request : PublicationRequest} {r r' : SchedulerRun σ}

/-! ## Outcomes -/

/-- The window of a request can be planned: slots have a length, and every meter is forecast. -/
def CanPlan (r : SchedulerRun σ) (env : Surroundings σ) (request : PublicationRequest) : Prop :=
  1 ≤ r.scheduler.config.slotLength ∧
  ∃ start stop values,
    r.scheduler.publicationWindow request env.now = .ok (start, stop) ∧
    env.forecasts.both start r.scheduler.config.slotLength
      (r.scheduler.config.slotsBetween start stop) = .ok values

/-- A window is posed as a problem unless a meter cannot be forecast. The problem is solved if its
    slots have a length, and only then. -/
theorem selfConsumptionProblem_cases {start stop : Int}
    {posed : Except SchedulingFailure SelfConsumptionProblem}
    (h : r.selfConsumptionProblem env start stop = .ok (posed, r')) :
    (∃ failure, posed = .error failure ∧
      env.forecasts.both start r.scheduler.config.slotLength
        (r.scheduler.config.slotsBetween start stop) = .error failure ∧ r.KeepsRecords r') ∨
    (∃ problem values, posed = .ok problem ∧
      env.forecasts.both start r.scheduler.config.slotLength
        (r.scheduler.config.slotsBetween start stop) = .ok values ∧ r.KeepsRecords r' ∧
      (start < stop → ∀ timestamp,
        ((∃ solution, problem.solve timestamp = .ok solution) ↔
          1 ≤ r.scheduler.config.slotLength))) := by
  rw [selfConsumptionProblem] at h
  cases hforecast : env.forecasts.both start r.scheduler.config.slotLength
      (r.scheduler.config.slotsBetween start stop) with
  | error failure =>
      rw [hforecast] at h
      cases h
      exact .inl ⟨failure, rfl, rfl, .refl r⟩
  | ok values =>
      obtain ⟨demand, production⟩ := values
      obtain ⟨hdemand, hproduction⟩ := ForecastEngine.length_both hforecast
      rw [hforecast] at h
      obtain ⟨⟨schedules, asked⟩, hretrieve, heq⟩ := bind_eq_ok_iff.1 h
      cases heq
      refine .inr ⟨_, _, rfl, rfl, retrieve_keepsRecords hretrieve, fun hwindow timestamp => ?_⟩
      exact SelfConsumptionProblem.exists_solution_iff hwindow (hdemand.trans hproduction.symm)
        timestamp

/-- What can come of a publication request. -/
inductive Publishes (r : SchedulerRun σ) (env : Surroundings σ) (request : PublicationRequest) :
    Except SchedulingFailure Unit → SchedulerRun σ → Prop
  /-- Nothing is left of the window. -/
  | over {start stop : Int}
      (hwindow : r.scheduler.publicationWindow request env.now = .ok (start, stop))
      (hover : stop ≤ start) :
      Publishes r env request (.ok ())
        (r.onScheduler fun s => s.save (s.state.markComplete request))
  /-- There is no plan. -/
  | unplanned {failure : SchedulingFailure} {r' : SchedulerRun σ}
      (hfailure : ∀ reason, failure ≠ .publication reason) (hplan : ¬ r.CanPlan env request)
      (hkept : r.KeepsRecords r') : Publishes r env request (.error failure) r'
  /-- An update within the target is committed and not published. -/
  | withheld {schedule : PublicSchedule} {r' : SchedulerRun σ} (hplan : r.CanPlan env request)
      (hkind : request.kind = .scheduleUpdate) (htarget : r'.scheduler.deviates schedule = false)
      (hkept : r.KeepsRecords r') : Publishes r env request (.ok ()) r'
  /-- The counterparty does not take the schedule. -/
  | refused {publication : Publication} {reason : String} {r' : SchedulerRun σ}
      (hplan : r.CanPlan env request) (hanswer : env.publisher publication = .error reason)
      (hkept : r.KeepsRecords r') :
      Publishes r env request (.error (.publication reason))
        (r'.onScheduler fun s => s.save (s.state.markIncomplete request))
  /-- The counterparty takes the schedule. -/
  | accepted {publication : Publication} {stop : Int} {r' : SchedulerRun σ}
      (hplan : r.CanPlan env request) (hanswer : env.publisher publication = .ok ())
      (hkept : r.KeepsRecords r') :
      Publishes r env request (.ok ())
        { r'.onScheduler (·.concludePublication request publication.schedule stop env.now) with
          published := r'.published ++ [publication] }

/-- A solution is announced after it has been committed. -/
theorem announce_publishes {committed : SchedulerRun σ} {solution : SelfConsumptionSolution}
    (hplan : r.CanPlan env request) (hkept : r.KeepsRecords committed) :
    r.Publishes env request (committed.announce env request solution).1
      (committed.announce env request solution).2 := by
  rw [announce]
  split_ifs with hupdate
  · simp only [Bool.and_eq_true, decide_eq_true_eq, Bool.not_eq_true'] at hupdate
    exact .withheld hplan hupdate.1 hupdate.2 hkept
  · dsimp only
    split
    · rename_i reason hanswer
      exact .refused hplan hanswer hkept
    · rename_i hanswer
      exact .accepted hplan hanswer hkept

/-- The window of a request is planned with `solution`, and the plan is committed in
    `committed`. -/
def Plans (r : SchedulerRun σ) (env : Surroundings σ) (request : PublicationRequest)
    (solution : SelfConsumptionSolution) (committed : SchedulerRun σ) : Prop :=
  ∃ start stop problem asked commitments,
    r.scheduler.publicationWindow request env.now = .ok (start, stop) ∧ start < stop ∧
    r.selfConsumptionProblem env start stop = .ok (.ok problem, asked) ∧
    problem.solve env.now = .ok solution ∧
    asked.commit env solution.tasks problem.schedules = .ok (commitments, committed)

section Plans

variable {solution solution' : SelfConsumptionSolution} {committed committed' : SchedulerRun σ}

/-- There is at most one plan. -/
theorem Plans.unique (h : r.Plans env request solution committed)
    (h' : r.Plans env request solution' committed') :
    solution = solution' ∧ committed = committed' := by
  obtain ⟨start, stop, problem, asked, commitments, hwindow, -, hproblem, hsolve, hcommit⟩ := h
  obtain ⟨start', stop', problem', asked', commitments', hwindow', -, hproblem', hsolve',
    hcommit'⟩ := h'
  rw [hwindow] at hwindow'
  cases hwindow'
  rw [hproblem] at hproblem'
  cases hproblem'
  rw [hsolve] at hsolve'
  cases hsolve'
  rw [hcommit] at hcommit'
  cases hcommit'
  exact ⟨rfl, rfl⟩

theorem Plans.canPlan (h : r.Plans env request solution committed) : r.CanPlan env request := by
  obtain ⟨start, stop, problem, asked, commitments, hwindow, hopen, hproblem, hsolve, -⟩ := h
  rcases selfConsumptionProblem_cases hproblem with
    ⟨failure, hposed, -⟩ | ⟨posed, values, hposed, hforecast, -, hsolvable⟩
  · cases hposed
  · cases hposed
    exact ⟨(hsolvable hopen env.now).1 ⟨solution, hsolve⟩, start, stop, values, hwindow, hforecast⟩

theorem Plans.keepsRecords (h : r.Plans env request solution committed) :
    r.KeepsRecords committed := by
  obtain ⟨start, stop, problem, asked, commitments, -, -, hproblem, -, hcommit⟩ := h
  rcases selfConsumptionProblem_cases hproblem with
    ⟨failure, hposed, -⟩ | ⟨posed, values, -, -, hasked, -⟩
  · cases hposed
  · exact hasked.trans (commit_keepsRecords hcommit)

end Plans

/-- A publication finds its window over, or fails without a plan, or has a plan to announce. -/
theorem publish_cases {answer : Except SchedulingFailure Unit}
    (h : r.publish env request = .ok (answer, r')) :
    (∃ start stop, r.scheduler.publicationWindow request env.now = .ok (start, stop) ∧
      stop ≤ start ∧ answer = .ok () ∧
      r' = r.onScheduler fun s => s.save (s.state.markComplete request)) ∨
    (∃ failure, answer = .error failure ∧ (∀ reason, failure ≠ .publication reason) ∧
      ¬ r.CanPlan env request ∧ r.KeepsRecords r') ∨
    (∃ solution committed, r.Plans env request solution committed ∧
      committed.announce env request solution = (answer, r')) := by
  obtain ⟨⟨start, stop⟩, hwindow, h⟩ := bind_eq_ok_iff.1 h
  dsimp only at h
  split_ifs at h with hover
  · cases h
    exact .inl ⟨start, stop, hwindow, hover, rfl, rfl⟩
  have hopen : start < stop := Int.not_le.1 hover
  obtain ⟨⟨posed, asked⟩, hproblem, h⟩ := bind_eq_ok_iff.1 h
  rcases selfConsumptionProblem_cases hproblem with
    ⟨failure, rfl, hforecast, hasked⟩ | ⟨problem, values, rfl, hforecast, hasked, hsolvable⟩
  · -- A meter is not forecast, and nothing else is done.
    cases h
    obtain ⟨cause, rfl⟩ := ForecastEngine.both_eq_error hforecast
    refine .inr (.inl ⟨_, rfl, fun _ => by simp, ?_, hasked⟩)
    rintro ⟨-, start', stop', values, hwindow', hforecast'⟩
    rw [hwindow] at hwindow'
    cases hwindow'
    rw [hforecast] at hforecast'
    cases hforecast'
  · dsimp only at h
    split at h
    · rename_i e hsolve
      cases h
      refine .inr (.inl ⟨_, rfl, fun _ => by simp, fun hplan => ?_, hasked⟩)
      obtain ⟨solution, hsolution⟩ := (hsolvable hopen env.now).2 hplan.1
      rw [hsolution] at hsolve
      cases hsolve
    · rename_i solution hsolve
      obtain ⟨⟨commitments, committed⟩, hcommit, heq⟩ := bind_eq_ok_iff.1 h
      exact .inr (.inr ⟨solution, committed, ⟨start, stop, problem, asked, commitments, hwindow,
        hopen, hproblem, hsolve, hcommit⟩, Except.ok.inj heq⟩)

/-- Every publication that comes to an end does so in one of these ways. -/
theorem publishes_of_eq_ok {answer : Except SchedulingFailure Unit}
    (h : r.publish env request = .ok (answer, r')) : r.Publishes env request answer r' := by
  rcases publish_cases h with ⟨start, stop, hwindow, hover, rfl, rfl⟩ |
    ⟨failure, rfl, hfailure, hplan, hkept⟩ | ⟨solution, committed, hplans, hannounce⟩
  · exact .over hwindow hover
  · exact .unplanned hfailure hplan hkept
  · have houtcome : r.Publishes env request (committed.announce env request solution).1
        (committed.announce env request solution).2 :=
      announce_publishes hplans.canPlan hplans.keepsRecords
    rw [hannounce] at houtcome
    exact houtcome

/-! ## Failed publications -/

/-- A failed publication is kept for another attempt exactly if its window could be planned, so
    that the counterparty was asked, or if it was kept before. Other requests are kept as before,
    nothing else that the scheduler remembers changes, and nothing has been published. -/
theorem failed_publication_kept_iff {failure : SchedulingFailure}
    (h : r.publish env request = .ok (.error failure, r')) :
    (request ∈ r'.scheduler.state.incomplete ↔
      request ∈ r.scheduler.state.incomplete ∨ r.CanPlan env request) ∧
    (∀ other, other ≠ request →
      (other ∈ r'.scheduler.state.incomplete ↔ other ∈ r.scheduler.state.incomplete)) ∧
    r'.scheduler.state
      = { r.scheduler.state with incomplete := r'.scheduler.state.incomplete } ∧
    r'.published = r.published := by
  cases publishes_of_eq_ok h with
  | unplanned hfailure hplan hkept =>
      rw [hkept.state]
      exact ⟨by simp [hplan], fun _ _ => Iff.rfl, rfl, hkept.published⟩
  | @refused publication reason committed hplan hanswer hkept =>
      have hstate : (committed.onScheduler fun s =>
          s.save (s.state.markIncomplete request)).scheduler.state
          = r.scheduler.state.markIncomplete request := by
        rw [← hkept.state]
        rfl
      rw [hstate]
      refine ⟨?_, fun other hother => ?_, SchedulerState.markIncomplete_eq _ _, hkept.published⟩
      · simp [SchedulerState.mem_markIncomplete, hplan]
      · rw [SchedulerState.mem_markIncomplete, or_iff_right hother]

/-! ## Settled publications -/

/-- The plan of an update keeps within the target, so that there is nothing to publish. -/
def Withholds (r : SchedulerRun σ) (env : Surroundings σ) (request : PublicationRequest) : Prop :=
  request.kind = .scheduleUpdate ∧ ∃ solution committed,
    r.Plans env request solution committed ∧
    committed.scheduler.deviates solution.schedule = false

/-- A request that is answered is forgotten, or its update has been withheld and everything is as
    it was before. -/
theorem forgets_or_withholds (h : r.publish env request = .ok (.ok (), r')) :
    (¬ r.Withholds env request ∧ ∀ other, other ∈ r'.scheduler.state.incomplete ↔
      other ≠ request ∧ other ∈ r.scheduler.state.incomplete) ∨
    (r.Withholds env request ∧ r.KeepsRecords r') := by
  rcases publish_cases h with ⟨start, stop, hwindow, hover, -, rfl⟩ | ⟨failure, hanswer, -⟩ |
    ⟨solution, committed, hplans, hannounce⟩
  · -- A window that is over is not planned.
    refine .inl ⟨?_, fun other => SchedulerState.mem_markComplete⟩
    rintro ⟨-, solution, committed, ⟨start', stop', _, _, _, hwindow', hopen, -⟩, -⟩
    rw [hwindow] at hwindow'
    cases hwindow'
    omega
  · cases hanswer
  · rw [announce] at hannounce
    split_ifs at hannounce with hupdate
    · cases hannounce
      simp only [Bool.and_eq_true, decide_eq_true_eq, Bool.not_eq_true'] at hupdate
      exact .inr ⟨⟨hupdate.1, solution, _, hplans, hupdate.2⟩, hplans.keepsRecords⟩
    · refine .inl ⟨?_, ?_⟩
      · -- There is no other plan that would keep within the target.
        rintro ⟨hkind, solution', committed', hplans', hwithin⟩
        obtain ⟨rfl, rfl⟩ := hplans.unique hplans'
        rw [hwithin] at hupdate
        simp [hkind] at hupdate
      · dsimp only at hannounce
        split at hannounce
        · cases hannounce
        · cases hannounce
          intro other
          rw [← hplans.keepsRecords.state]
          exact Scheduler.mem_concludePublication

/-- A settled publication stays among those that are tried again exactly if it was there and is an
    update that has been withheld because its plan keeps within the target. Other requests are kept
    as before, and a withheld update changes nothing that the scheduler remembers and is not
    published. -/
theorem settled_publication_kept_iff (h : r.publish env request = .ok (.ok (), r')) :
    (request ∈ r'.scheduler.state.incomplete ↔
      request ∈ r.scheduler.state.incomplete ∧ r.Withholds env request) ∧
    (∀ other, other ≠ request →
      (other ∈ r'.scheduler.state.incomplete ↔ other ∈ r.scheduler.state.incomplete)) ∧
    (r.Withholds env request →
      r'.scheduler.state = r.scheduler.state ∧ r'.published = r.published) := by
  rcases forgets_or_withholds h with ⟨hpublished, hforgets⟩ | ⟨hwithheld, hkept⟩
  · refine ⟨?_, fun other hother => ?_, fun hwithheld => absurd hwithheld hpublished⟩
    · simp [hforgets, hpublished]
    · rw [hforgets, and_iff_right hother]
  · rw [hkept.state]
    exact ⟨(and_iff_left hwithheld).symm, fun _ _ => Iff.rfl, fun _ => ⟨rfl, hkept.published⟩⟩

end SchedulerRun

/-- A site without devices that plans hours in UTC. -/
def SchedulerRun.withoutDevices : SchedulerRun StorageDevices where
  scheduler :=
    { config :=
        { zone := Zone.utc
          providers := []
          slotLength := 3600
          adaptationHorizon := 80
          complianceInterval := 900
          updateInterval := 300
          deviationThreshold := 100
          energyBuffer := 0
          timeBuffer := 5
          publicationTime := 61200
          callLimit := 10
          lanes := 4 }
      state := .fresh
      file := ⟨0, 0, none, none⟩
      adapter := ⟨.empty, .empty 900 300⟩ }
  devices := OrderedMap.empty
  published := []

/-- The day-ahead schedule of the hour from 1:00 to 2:00. -/
def PublicationRequest.hourAhead : PublicationRequest := ⟨.initialSchedule, 3600, 7200⟩

/-- The given time and meters of the demand, with a counterparty that is not there. -/
def Surroundings.withoutCounterparty (now : Int) (meters : List Forecaster) :
    Surroundings StorageDevices where
  now := now
  transport := StorageDevices.transport now
  forecasts := ⟨meters, []⟩
  publisher := fun _ => .error "offline"

/-- The given time without meters, with a counterparty that takes every schedule. -/
def Surroundings.withCounterparty (now : Int) : Surroundings StorageDevices :=
  { withoutCounterparty now [] with publisher := fun _ => .ok () }

namespace SchedulerRun

/-- The hour is planned, and the counterparty is not there. -/
theorem failed_publication_kept_offline :
    ∃ r', withoutDevices.publish (.withoutCounterparty 0 []) .hourAhead
        = .ok (.error (.publication "offline"), r') ∧
      withoutDevices.CanPlan (.withoutCounterparty 0 []) .hourAhead ∧
      PublicationRequest.hourAhead ∈ r'.scheduler.state.incomplete := by
  have hplan : withoutDevices.CanPlan (.withoutCounterparty 0 []) .hourAhead :=
    ⟨by decide, 3600, 7200, _, by decide, rfl⟩
  exact ⟨_, rfl, hplan, (failed_publication_kept_iff rfl).1.2 (.inr hplan)⟩

/-- Not every failed publication is kept: one for which a meter cannot be forecast is lost. -/
theorem unforecast_publication_lost :
    ∃ cause,
      withoutDevices.publish (.withoutCounterparty 0 [.unavailable "service down"]) .hourAhead
        = .ok (.error (.forecast cause), withoutDevices) ∧
      PublicationRequest.hourAhead ∉ withoutDevices.scheduler.state.incomplete := by
  exact ⟨_, rfl, by decide⟩

/-- The site after a failed attempt to publish what is requested. -/
def keeping (request : PublicationRequest) : SchedulerRun StorageDevices :=
  withoutDevices.onScheduler fun s => { s with state := s.state.markIncomplete request }

/-- A day-ahead schedule that the counterparty takes at the second attempt is forgotten. -/
theorem settled_publication_kept_hourAhead :
    ∃ r', (keeping .hourAhead).publish (.withCounterparty 0) .hourAhead = .ok (.ok (), r') ∧
      PublicationRequest.hourAhead ∈ (keeping .hourAhead).scheduler.state.incomplete ∧
      PublicationRequest.hourAhead ∉ r'.scheduler.state.incomplete := by
  obtain ⟨r', hr'⟩ : ∃ r', (keeping .hourAhead).publish (.withCounterparty 0) .hourAhead
      = .ok (.ok (), r') := ⟨_, rfl⟩
  refine ⟨r', hr', by decide, fun hkept => ?_⟩
  obtain ⟨-, hkind, -⟩ := (settled_publication_kept_iff hr').1.1 hkept
  cases hkind

/-- Not every settled publication is forgotten: an update that turns out to keep within the target
    is tried again and again. -/
theorem withheld_publication_retried :
    ∃ r', (keeping ⟨.scheduleUpdate, 3600, 7200⟩).publish (.withCounterparty 0)
        ⟨.scheduleUpdate, 3600, 7200⟩ = .ok (.ok (), r') ∧
      ⟨.scheduleUpdate, 3600, 7200⟩ ∈ r'.scheduler.state.incomplete ∧
      (r'.scheduler.retryIncomplete 300).1 = 1 :=
  ⟨_, rfl, by decide, by decide⟩

end SchedulerRun

end SiteDispatch
