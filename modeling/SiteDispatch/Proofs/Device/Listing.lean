/-
  SiteDispatch.Proofs.Device.Listing

  What a device lists can be planned.

  An answer lists ordinary pairs whose corridors have just been derived. Their energy
  corridor is flat from the offset on from which they are offered, and planning never
  begins before that offset, so a listed task may rest at any time. The tasks begin at
  most two days before the window: each of them covers an end of the window or the
  start of the local day of one.
-/

import SiteDispatch.Proofs.Device.Acceptance
import SiteDispatch.Proofs.Device.Limits
import SiteDispatch.Proofs.Device.Ordinary
import SiteDispatch.Proofs.Planning.Admission

namespace SiteDispatch

/-- Power limits that are none below 0 W and keep what a longest day can deliver in
    the narrow range. -/
structure DeviceConfig.Moderate (c : DeviceConfig) : Prop where
  charge : 0 ≤ c.maxCharge
  discharge : 0 ≤ c.maxDischarge
  chargeFits : c.maxCharge * longestDay ≤ Quantity.greatest
  dischargeFits : c.maxDischarge * longestDay ≤ Quantity.greatest

namespace DeviceState

/-! ## How far listed tasks reach back -/

section Reach

variable {s : DeviceState} {now stored : Int} {zone : Zone} {c : DeviceConfig}

/-- The task that is found or created for an instant begins at most two days before. -/
theorem ensureDay_reach {time : Int} (hday : zone.OrdinaryDay time) (h : s.Holds OrdinaryPair)
    (stopIncluded : Bool) {t : Task}
    (ht : (s.ensureDay time stopIncluded now stored zone c).2.tasks.get?
      (s.ensureDay time stopIncluded now stored zone c).1 = some t) :
    time - t.startingTime ≤ 2 * longestDay := by
  have hnear := hday.near
  have hlongest : 0 ≤ longestDay := by decide
  rcases s.ensureDay_cases time stopIncluded now stored zone c with
    ⟨k, t', hget, hcovers, heq⟩ | ⟨energy, heq⟩
  · -- A task that is found covers the instant or the start of its day.
    obtain ⟨f, -, hpair⟩ := h.paired.of_task hget
    rw [heq] at ht
    dsimp only at ht
    rw [hpair.task, hget, Option.some.injEq] at ht
    subst ht
    have hlasts : t'.runningTime ≤ longestDay := hpair.inTime.trans hpair.short
    rw [covers_iff, covers_iff] at hcovers
    simp only [Task.stop] at hcovers
    omega
  · -- A new task begins with the day.
    rw [heq] at ht
    dsimp only [withDay] at ht
    rw [OrderedMap.get?_insert_self, Option.some.injEq] at ht
    subst ht
    simp only [Task.idle]
    omega

/-- Both listed tasks begin at most two days before the window. -/
theorem ensureDays_reach {start stop : Int}
    (hdays : zone.OrdinaryDay start ∧ zone.OrdinaryDay stop) (h : s.Holds OrdinaryPair)
    (hwindow : start ≤ stop) {k : Int} {t : Task}
    (hk : k ∈ (s.ensureDays start stop now stored zone c).1)
    (ht : (s.ensureDays start stop now stored zone c).2.tasks.get? k = some t) :
    start - t.startingTime ≤ 2 * longestDay := by
  have hallowed : DeviceOperation.Ordinary
      (.getSchedule default start stop now stored zone c) := hdays
  have hfirst := h.ensureDay ordinaryInvariant hallowed (.inl rfl) false
  simp only [ensureDays] at hk ht
  have hids : k = (s.ensureDay start false now stored zone c).1 ∨
      k = ((s.ensureDay start false now stored zone c).2.ensureDay stop true now stored zone c).1 := by
    split at hk
    · exact .inl (List.mem_singleton.1 hk)
    · simpa using hk
  rcases hids with rfl | rfl
  · -- The second day may have taken the id of the first.
    rcases (s.ensureDay start false now stored zone c).2.ensureDay_cases stop true now stored
      zone c with ⟨k, t', -, -, heq⟩ | ⟨energy, heq⟩
    · rw [heq] at ht
      exact ensureDay_reach hdays.1 h false ht
    · rw [heq] at ht
      dsimp only [withDay] at ht
      rw [OrderedMap.get?_insert] at ht
      split at ht
      · have hnear := hdays.2.near
        rw [Option.some.injEq] at ht
        subst ht
        simp only [Task.idle]
        have : 0 ≤ longestDay := by decide
        omega
      · exact ensureDay_reach hdays.1 h false ht
  · have hlast := ensureDay_reach hdays.2 hfirst true ht
    omega

end Reach

/-! ## Listed pairs -/

/-- The pair that an answer given at `now` for a window from `start` on lists under
    `k`. -/
structure Listed (s : DeviceState) (now start stored : Int) (c : DeviceConfig) (k : Int)
    (f : Flexibility) (t : Task) : Prop where
  flexibility : s.flexibilities.get? k = some f
  task : s.tasks.get? k = some t
  ordinary : OrdinaryPair k f t
  refreshed : Refreshed s now stored c t f
  reach : start - t.startingTime ≤ 2 * longestDay

section Listed

variable {s s' : DeviceState} {device : DeviceId} {now start stop stored k : Int} {zone : Zone}
  {c : DeviceConfig} {summary : ScheduleSummary} {f : Flexibility} {t : Task}

theorem listed_of_getSchedule (hdays : zone.OrdinaryDay start ∧ zone.OrdinaryDay stop)
    (h : s.Holds OrdinaryPair)
    (hget : s.getSchedule device start stop now stored zone c = .ok (summary, s'))
    (hk : k ∈ summary.taskIds) (ht : s'.tasks.get? k = some t) :
    ∃ f, Listed s' now start stored c k f t := by
  have hallowed : DeviceOperation.Ordinary
      (.getSchedule device start stop now stored zone c) := hdays
  obtain ⟨hwindow, -, hids, -, hrefresh⟩ := getSchedule_eq_ok hget
  obtain ⟨f, hf, hpair⟩ := (h.getSchedule ordinaryInvariant hallowed hget).paired.of_task ht
  -- Deriving corridors leaves the tasks alone.
  have hrefreshed := h.refreshed ordinaryInvariant hallowed hget hk ht hf
  have heq := (refreshAll_spec hrefresh ((h.ensureDays ordinaryInvariant hallowed).named
    ordinaryInvariant)).1
  rw [heq] at ht
  exact ⟨f, hf, heq ▸ ht, hpair, hrefreshed, ensureDays_reach hdays h hwindow (hids ▸ hk) ht⟩

/-- A charge target stays what it was. -/
theorem socTargetActive_of_getSchedule (hdays : zone.OrdinaryDay start ∧ zone.OrdinaryDay stop)
    (h : s.Holds OrdinaryPair)
    (hget : s.getSchedule device start stop now stored zone c = .ok (summary, s')) (time : Int) :
    s'.socTargetActive time = s.socTargetActive time := by
  obtain ⟨hsoc, htime⟩ := h.target_of_getSchedule ordinaryInvariant
    (show DeviceOperation.Ordinary (.getSchedule device start stop now stored zone c) from hdays)
    hget
  simp only [socTargetActive, hsoc, htime]

theorem powerRange_contains_zero (hc : c.Moderate) : c.powerRange.contains 0 := by
  have := hc.charge
  have := hc.discharge
  rw [Interval.contains_iff, DeviceConfig.powerRange]
  dsimp only
  omega

/-- A day at full power stays in the narrow range. -/
theorem powerRange_moderate (hc : c.Moderate) {runningTime : Int}
    (hrun : runningTime ≤ longestDay) :
    max |c.powerRange.low| |c.powerRange.high| * runningTime ≤ Quantity.greatest := by
  have hlow : |c.powerRange.low| = c.maxDischarge := by
    rw [DeviceConfig.powerRange, abs_neg, abs_of_nonneg hc.discharge]
  have hhigh : |c.powerRange.high| = c.maxCharge := abs_of_nonneg hc.charge
  rw [hlow, hhigh]
  rcases max_choice c.maxDischarge c.maxCharge with heq | heq
  · rw [heq]
    exact (Int.mul_le_mul_of_nonneg_left hrun hc.discharge).trans hc.dischargeFits
  · rw [heq]
    exact (Int.mul_le_mul_of_nonneg_left hrun hc.charge).trans hc.chargeFits

/-- The power corridor of a listed pair holds nothing but rest and the whole range. -/
theorem Listed.powerCorridor (h : Listed s now start stored c k f t)
    (hsoc : s.socTargetActive now = false) :
    0 ∈ f.powerCorridor.keys ∧
      ∀ i ∈ f.powerCorridor.values, i = Interval.zero ∨ i = c.powerRange := by
  by_cases hstarted : t.startingTime ≤ now
  · -- What lies before now is closed, the rest is open.
    obtain ⟨-, hpower, -⟩ := h.refreshed.started hstarted hsoc
    rw [hpower]
    constructor
    · rw [OrderedMap.mem_keys_iff_get?, get?_startedPower]
      split
      · exact ⟨_, rfl⟩
      · exact ⟨Interval.zero, rfl⟩
    · intro i hi
      obtain ⟨k, hk⟩ := OrderedMap.mem_values_iff_get?.1 hi
      rw [get?_startedPower] at hk
      split_ifs at hk <;> simp_all
  · rw [h.refreshed.futurePower (by omega) hsoc]
    constructor
    · exact OrderedMap.mem_keys_iff_get?.2 ⟨c.powerRange, rfl⟩
    · intro i hi
      exact .inr (List.mem_singleton.1 hi)

/-- Every stored energy bound of a listed pair admits that nothing is delivered. -/
theorem Listed.energyCorridor (h : Listed s now start stored c k f t)
    (hsoc : s.socTargetActive now = false) {j : Int} {bound : Interval}
    (hj : f.energyCorridor.get? j = some bound) : bound.contains 0 := by
  have hopen : Interval.unbounded.contains 0 = true := by decide
  by_cases hstarted : t.startingTime ≤ now
  · -- Up to now anything may have been delivered.
    obtain ⟨-, -, henergy⟩ := h.refreshed.started hstarted hsoc
    rw [henergy, startedEnergy, OrderedMap.get?_insert, OrderedMap.get?_insert,
      OrderedMap.get?_singleton] at hj
    split_ifs at hj <;> cases hj
    · exact c.energyWindow_contains_zero _
    · exact hopen
    · exact hopen
  · rw [h.refreshed.futureEnergy (by omega), OrderedMap.get?_singleton] at hj
    split at hj <;> cases hj
    exact c.energyWindow_contains_zero _

theorem Listed.rests (h : Listed s now start stored c k f t) (hc : c.Moderate)
    (hsoc : s.socTargetActive now = false) {i : Interval} (hi : i ∈ f.powerCorridor.values) :
    i.contains 0 := by
  rcases (h.powerCorridor hsoc).2 i hi with rfl | rfl
  · decide
  · exact powerRange_contains_zero hc

theorem Listed.moderate (h : Listed s now start stored c k f t) (hc : c.Moderate)
    (hsoc : s.socTargetActive now = false) {i : Interval} (hi : i ∈ f.powerCorridor.values) :
    max |i.low| |i.high| * t.runningTime ≤ Quantity.greatest := by
  rcases (h.powerCorridor hsoc).2 i hi with rfl | rfl
  · simp [Interval.zero, Quantity.greatest]
  · exact powerRange_moderate hc (h.ordinary.inTime.trans h.ordinary.short)

/-- A listed task may rest at any time. -/
theorem Listed.plannable (h : Listed s now start stored c k f t) (hc : c.Moderate)
    (hsoc : s.socTargetActive now = false) (hnow : now ≤ start) {w : PlanningWindow}
    (hstart : w.start = start) (hgrid : 1 ≤ w.slotLength) (hbuffer : 0 ≤ w.buffer) :
    Plannable w f t (w.entry t) := by
  have hinTime := h.ordinary.inTime
  have hshort := h.ordinary.short
  have hreach := h.reach
  have hentry : w.entry t = max start t.startingTime - t.startingTime := by
    rw [PlanningWindow.entry, hstart]
  have hentry0 := w.entry_nonneg t
  -- The task is planned from no earlier than `now`.
  have hwindow : ∀ u, 0 ≤ u → min (w.entry t) t.runningTime ≤ u → f.energyConstraint? u
      = some (c.energyWindow (s.expectedEnergy now (max now t.startingTime) stored)) :=
    fun u hu hle => h.refreshed.energyConstraint? (fun _ => hsoc) hu (by omega)
  exact
    { grid := hgrid
      buffer := hbuffer
      reach := by
        simp only [longestDay, Quantity.greatest] at *
        omega
      lasts := h.ordinary.lasting
      short := by
        simp only [longestDay, Quantity.greatest] at *
        omega
      inTime := hinTime
      ends := by
        rw [h.ordinary.ends, Interval.contains_iff]
        exact ⟨Int.le_refl _, Int.le_refl _⟩
      covered := ⟨0, (h.powerCorridor hsoc).1, Int.le_refl 0⟩
      rests := fun i hi => h.rests hc hsoc hi
      moderate := fun i hi => h.moderate hc hsoc hi
      idles := by
        intro u hu hmem
        rcases hmem with hmem | hle
        · obtain ⟨bound, hbound⟩ := OrderedMap.mem_keys_iff_get?.1 hmem
          have hin := h.energyCorridor hsoc hbound
          exact ⟨bound, Flexibility.energyConstraint?_of_get? hbound, hin⟩
        · exact ⟨_, hwindow u hu hle, c.energyWindow_contains_zero _⟩
      quiet := .inl (Int.le_refl _)
      widens := by
        -- From the entry on the bound is one and the same.
        intro u v total hu hr huv
        rw [Flexibility.AdmitsEnergy, Flexibility.AdmitsEnergy, hwindow u hu (by omega),
          hwindow v (by omega) (by omega)]
        exact id }

end Listed

/-! ## Fresh answers -/

/-- In a state that is `s'` afterwards, `data` is what a request made at `now` for the
    window from `start` to `stop` brings. -/
def Answers (s : DeviceState) (device : DeviceId) (start stop now stored : Int) (zone : Zone)
    (c : DeviceConfig) (data : ScheduleData) (s' : DeviceState) : Prop :=
  ∃ summary, s.getSchedule device start stop now stored zone c = .ok (summary, s') ∧
    data.tasks = summary.taskIds.filterMap s'.tasks.get? ∧
    data.flexibilities = summary.flexibilityIds.filterMap s'.flexibilities.get?

/-- Tasks and flexibilities as an answer given at `now` lists them, for a window from
    `start` on. -/
structure Fresh (s : DeviceState) (now start : Int) (data : ScheduleData) : Prop where
  holds : s.Holds OrdinaryPair
  quiet : s.socTargetActive now = false
  tasks : ∀ t ∈ data.tasks, ∃ c stored k f, c.Moderate ∧ Listed s now start stored c k f t
  flexibilities : ∀ f ∈ data.flexibilities, ∃ k, s.flexibilities.get? k = some f

section Fresh

variable {s s' : DeviceState} {device : DeviceId} {now start stop stored k : Int} {zone : Zone}
  {c : DeviceConfig} {data : ScheduleData} {f : Flexibility} {t : Task} {w : PlanningWindow}

/-- What an answer brings is fresh. -/
theorem fresh_of_answers (hdays : zone.OrdinaryDay start ∧ zone.OrdinaryDay stop)
    (hc : c.Moderate) (h : s.Holds OrdinaryPair) (hsoc : s.socTargetActive now = false)
    (hanswers : s.Answers device start stop now stored zone c data s') :
    s'.Fresh now start data := by
  obtain ⟨summary, hget, htasks, hflex⟩ := hanswers
  have hallowed : DeviceOperation.Ordinary
      (.getSchedule device start stop now stored zone c) := hdays
  refine ⟨h.getSchedule ordinaryInvariant hallowed hget, ?_, fun t ht => ?_, fun f hf => ?_⟩
  · rw [socTargetActive_of_getSchedule hdays h hget, hsoc]
  · rw [htasks, List.mem_filterMap] at ht
    obtain ⟨k, hk, ht⟩ := ht
    obtain ⟨f, hlisted⟩ := listed_of_getSchedule hdays h hget hk ht
    exact ⟨c, stored, k, f, hc, hlisted⟩
  · rw [hflex, List.mem_filterMap] at hf
    obtain ⟨k, -, hf⟩ := hf
    exact ⟨k, hf⟩

/-- A device offers its own tasks only: no flexibility of a fresh answer is free. -/
theorem Fresh.listed (h : s.Fresh now start data)
    (hpair : (data.plannable w).get? k = some (f, t)) :
    ∃ c stored, c.Moderate ∧ Listed s now start stored c t.flexibilityId f t := by
  obtain ⟨-, hknown, hnamed, horigin⟩ := offers_of_get?_plannable hpair
  obtain ⟨j, hj⟩ := h.flexibilities f hknown
  obtain ⟨u, -, hordinary⟩ := h.holds.paired.of_flexibility hj
  rcases horigin with ⟨htask, -⟩ | ⟨hfree, -, -⟩
  · obtain ⟨c, stored, i, g, hc, hlisted⟩ := h.tasks t htask
    -- The id that the task names is that of its pair and that of `f`.
    have hi : t.flexibilityId = i := hlisted.ordinary.named
    have hij : i = j := by rw [← hi, hnamed, hordinary.flexibility]
    have hfg : f = g := by
      have hg := hlisted.flexibility
      rw [hij, hj, Option.some.injEq] at hg
      exact hg
    rw [hi, hfg]
    exact ⟨c, stored, hc, hlisted⟩
  · rw [hordinary.toLinked.not_free] at hfree
    cases hfree

/-- What is planned for a fresh answer fits the device's flexibility and begins when
    the device's task does. -/
theorem Fresh.planned (h : s.Fresh now start data) (hnow : now ≤ start) (hstart : w.start = start)
    (hgrid : 1 ≤ w.slotLength) (hbuffer : 0 ≤ w.buffer)
    (hpair : (data.plannable w).get? k = some (f, t)) (goals : List (Option Int))
    (ledger : List Int) :
    (planTask w goals f t ledger).1.adaptable = true ∧
      s.Awaits (planTask w goals f t ledger).1 := by
  obtain ⟨c, stored, hc, hlisted⟩ := h.listed hpair
  have hplannable := hlisted.plannable hc h.quiet hnow hstart hgrid hbuffer
  refine ⟨hlisted.ordinary.adaptable, f, t, hlisted.flexibility, hlisted.task, rfl, ?_, ?_⟩
  · exact hplannable.planTask_fits goals ledger
  · exact hplannable.planTask_keys_nonneg goals ledger

end Fresh

end DeviceState
end SiteDispatch
