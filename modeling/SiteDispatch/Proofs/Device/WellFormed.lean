/-
  SiteDispatch.Proofs.Device.WellFormed

  What the tasks of a device look like.

  A task is made with its day and changed by accepted profiles, corrections, repairs and the
  return to rest. All of them leave it with a profile that starts with the task and ends with
  rest, at the one instant at which the flexibility lets it end. Days run forward and have a
  length that fits the narrow range; without that a task ends before or after its day.
-/

import SiteDispatch.Proofs.Calendar.Forward
import SiteDispatch.Proofs.Device.Windows

namespace SiteDispatch

open Calendar (startOfDay startOfNextDay)

/-- No day ends before it starts. -/
def DeviceOperation.Forward : DeviceOperation → Prop
  | addDay start stop _ _ => start ≤ stop
  | getSchedule _ _ _ _ _ zone _ => ∀ t, startOfDay zone t ≤ startOfNextDay zone t
  | _ => True

/-- Days run forward and have a length that fits the narrow range. -/
def DeviceOperation.InOrder (op : DeviceOperation) : Prop := op.Forward ∧ op.Narrow

/-- A task inside its flexibility, with a profile from its start to its end. -/
structure WellFormed (f : Flexibility) (t : Task) : Prop where
  starts : 0 ∈ t.power.keys
  rests : t.power.lastEntry? = some (t.runningTime, 0)
  lasting : 0 ≤ t.runningTime
  inTime : t.runningTime ≤ f.runningTime.high
  ends : f.stoppingTime = ⟨t.startingTime + t.runningTime, t.startingTime + t.runningTime⟩

namespace WellFormed

variable {f : Flexibility} {t : Task} {time : Int} {power : PowerProfile}

/-! ## New and resting tasks -/

theorem zero_mem_keys_idle (runningTime : Int) :
    0 ∈ OrderedMap.keys (PowerProfile.idle runningTime) := by
  rw [OrderedMap.mem_keys_iff_get?, PowerProfile.idle, OrderedMap.get?_insert,
    OrderedMap.get?_singleton]
  split
  · exact ⟨0, rfl⟩
  · exact ⟨0, rfl⟩

/-- A task that rests keeps within its flexibility. -/
theorem rested (h : WellFormed f t) :
    WellFormed f { t with power := PowerProfile.idle t.runningTime } :=
  { h with starts := zero_mem_keys_idle _, rests := lastEntry?_idle h.lasting }

theorem offeredDay {id start stop stored : Int} {c : DeviceConfig} (hforward : start ≤ stop)
    (hfits : Quantity.low32 (stop - start) = stop - start) :
    WellFormed (DeviceState.offeredDay id start stop stored c)
      (Task.idle id id true start (Quantity.low32 (stop - start))) where
  starts := zero_mem_keys_idle _
  rests := lastEntry?_idle (by omega)
  lasting := by
    rw [hfits]
    show 0 ≤ stop - start
    omega
  inTime := Int.le_refl _
  ends := by
    rw [hfits]
    show (⟨stop, stop⟩ : Interval) = ⟨start + (stop - start), start + (stop - start)⟩
    rw [show start + (stop - start) = stop by omega]

/-! ## Accepted profiles -/

/-- A profile that fits ends where the flexibility lets it, so a task with this profile, in its
    shortest form, is well formed as soon as the task ends there too. -/
theorem of_fits (hfits : f.Fits t.startingTime power)
    (hends : f.stoppingTime = ⟨t.stop, t.stop⟩) :
    WellFormed f (Task.compress { t with power := power }) := by
  have hlast := hfits.lastEntry? hends
  have hrun : t.stop - t.startingTime = t.runningTime := by
    rw [Task.stop]
    omega
  rw [hrun] at hlast
  obtain ⟨last, hlast', hhigh, -⟩ := hfits.stops
  rw [hlast, Option.some.injEq, Prod.mk.injEq] at hlast'
  exact
    { starts := PowerProfile.zero_mem_keys_compress hfits.starts
      rests := PowerProfile.lastEntry?_compress hlast
      lasting := hfits.last_nonneg hlast
      inTime := hlast'.1 ▸ hhigh
      ends := hends }

/-- Wherever a profile is scheduled, the task gets its length, and ends at the only instant at
    which the flexibility lets it. -/
theorem scheduled {startingTime : Int} (hsingle : f.stoppingTime.low = f.stoppingTime.high)
    (hfits : f.Fits startingTime power) :
    WellFormed f (DeviceState.rescheduled t startingTime power) := by
  obtain ⟨last, hlast, -, hstop⟩ := hfits.stops
  have hkey : power.lastKey?.getD t.runningTime = last := by
    rw [OrderedMap.lastKey?_eq_map, hlast]
    rfl
  rw [Interval.contains_iff] at hstop
  have hends : f.stoppingTime = ⟨startingTime + last, startingTime + last⟩ := by
    rw [show startingTime + last = f.stoppingTime.high by omega]
    exact congrArg (fun low => (⟨low, f.stoppingTime.high⟩ : Interval)) hsingle
  rw [← hkey] at hends
  exact of_fits (t := { t with
    startingTime := startingTime, runningTime := power.lastKey?.getD t.runningTime }) hfits hends

/-! ## Repairs -/

/-- A repair takes effect inside the task, where it adds a key. -/
theorem repaired (h : WellFormed f t) (hnarrow : f.runningTime.high ≤ Quantity.greatest)
    (hcovers : DeviceState.covers time false t) :
    WellFormed f
      { t with power := t.power.insert (Quantity.low32 (time - t.startingTime)) 0 } := by
  have hinside : 0 ≤ time - t.startingTime ∧ time - t.startingTime < t.runningTime := by
    obtain ⟨hstart, hstop⟩ := DeviceState.covers_iff.1 hcovers
    simp only [Task.stop, Bool.false_eq_true, false_and, or_false] at hstop
    omega
  have hlow : Quantity.low32 (time - t.startingTime) = time - t.startingTime := by
    have := h.inTime
    apply Quantity.low32_eq_self
    · simp only [Quantity.least]
      omega
    · omega
  rw [hlow]
  refine { h with starts := ?_, rests := ?_ }
  · obtain ⟨v, hv⟩ := OrderedMap.mem_keys_iff_get?.1 h.starts
    rw [OrderedMap.mem_keys_iff_get?, OrderedMap.get?_insert]
    split
    · exact ⟨0, rfl⟩
    · exact ⟨v, hv⟩
  · exact OrderedMap.lastEntry?_insert_of_lt h.rests hinside.2

theorem compressed (h : WellFormed f t) : WellFormed f t.compress :=
  { h with
    starts := PowerProfile.zero_mem_keys_compress h.starts
    rests := PowerProfile.lastEntry?_compress h.rests }

end WellFormed

namespace DeviceState

/-- A pair whose task is well formed. -/
structure WellFormedPair (k : Int) (f : Flexibility) (t : Task) : Prop
    extends Linked k f t, WellFormed f t where
  narrow : f.runningTime.high ≤ Quantity.greatest

theorem wellFormedPair_offeredDay {id start stop stored : Int} {c : DeviceConfig} (hid : 0 ≤ id)
    (hforward : start ≤ stop) (hfits : Quantity.low32 (stop - start) = stop - start) :
    WellFormedPair id (offeredDay id start stop stored c)
      (Task.idle id id true start (Quantity.low32 (stop - start))) where
  toLinked := ⟨hid, rfl, rfl, rfl, rfl⟩
  toWellFormed := WellFormed.offeredDay hforward hfits
  narrow := Quantity.low32_le_greatest _

/-- A well-formed task stays so, whatever happens to it. -/
theorem wellFormedInvariant : PairInvariant DeviceOperation.InOrder WellFormedPair where
  linked h := h.toLinked
  newDay hid hday := wellFormedPair_offeredDay hid hday.1 hday.2
  localDay hzone _ _ hid := wellFormedPair_offeredDay hid (hzone.1 _) (hzone.2 _)
  corridors _ _ h := { h with }
  scheduled h _ hfits :=
    ⟨⟨h.nonneg, h.flexibility, h.assigned, h.task, h.named⟩,
      WellFormed.scheduled (by rw [h.ends]) hfits, h.narrow⟩
  adapted h hfits :=
    ⟨⟨h.nonneg, h.flexibility, h.assigned, h.task, h.named⟩, WellFormed.of_fits hfits h.ends,
      h.narrow⟩
  rested h := { h with toWellFormed := h.toWellFormed.rested }
  repaired h hcovers := { h with toWellFormed := h.toWellFormed.repaired h.narrow hcovers }
  compressed h := { h with toWellFormed := h.toWellFormed.compressed }

/-- Every task of a device starts with its profile and rests at its end, lasts no longer than its
    flexibility allows and ends when that ends, whatever has been asked for, as long as days run
    forward with a length that fits. The days of all zones of the table do. -/
theorem tasks_wellFormed :
    (∀ z ∈ Zone.all, z.Narrow ∧ ∀ time, startOfDay z time ≤ startOfNextDay z time) ∧
    ∀ {s : DeviceState}, Reachable DeviceOperation.InOrder s →
      ∀ k t, s.tasks.get? k = some t →
        ∃ f, s.flexibilities.get? t.flexibilityId = some f ∧ WellFormed f t := by
  refine ⟨fun z hz => ⟨Zone.narrow_of_mem z hz, Zone.forward_of_mem z hz⟩, fun hs k t ht => ?_⟩
  obtain ⟨f, hf, hpair⟩ := (hs.holds wellFormedInvariant).paired.of_task ht
  exact ⟨f, hpair.named.symm ▸ hf, hpair.toWellFormed⟩

/-- A task that has been moved to the afternoon is well formed after the repair of the morning. -/
theorem tasks_wellFormed_morningRepaired :
    ∃ f t, morningRepaired.tasks.get? 1 = some t ∧ morningRepaired.flexibilities.get? 1 = some f ∧
      t.startingTime = 129600 ∧ WellFormed f t := by
  have hs : Reachable DeviceOperation.InOrder morningRepaired := by
    refine Reachable.foldl (.step .fresh ⟨?_, ?_⟩) _ ?_
    · simp [DeviceOperation.InOrder, DeviceOperation.Forward, DeviceOperation.Narrow]
    · exact Zone.forward_of_mem _ List.mem_cons_self
    · exact Zone.narrow_of_mem _ List.mem_cons_self
  have htask : ∃ t, morningRepaired.tasks.get? 1 = some t ∧ t.flexibilityId = 1 ∧
      t.startingTime = 129600 := by decide +kernel
  obtain ⟨t, ht, hnamed, hstart⟩ := htask
  obtain ⟨f, hf, hwell⟩ := tasks_wellFormed.2 hs 1 t ht
  exact ⟨f, t, ht, hnamed ▸ hf, hstart, hwell⟩

/-- The length of a day of more than 68 years does not fit: the task of a day that is longer than
    another by `2 ^ 32` seconds lasts only as long as that of the other, and its flexibility does
    not let it end then. -/
theorem overlong_day_not_wellFormed :
    ∃ s f t, Reachable DeviceOperation.Forward s ∧ s.tasks.get? 0 = some t ∧
      s.flexibilities.get? t.flexibilityId = some f ∧
      t.startingTime + t.runningTime ≠ f.stoppingTime.high ∧ ¬ WellFormed f t := by
  refine ⟨DeviceOperation.perform .fresh
    (.addDay 0 4295053696 3000 ⟨⟨1⟩, 6000, 10, 90, 2000, 2000, 100⟩), _, _, ?_, rfl, rfl, ?_, ?_⟩
  · apply Reachable.step Reachable.fresh
    show (0 : Int) ≤ 4295053696
    decide
  · decide +kernel
  · intro h
    exact absurd (congrArg Interval.high h.ends) (by decide +kernel)

/-! ## Days of any length -/

/-- No profile that starts with the task ends when the flexibility lets it. -/
def Stuck (f : Flexibility) (t : Task) : Prop :=
  f.stoppingTime.high < t.startingTime ∨
    t.startingTime + f.runningTime.high < f.stoppingTime.high

/-- A pair whose task is well formed, or has never been given a profile and is not given one where
    it starts. -/
structure SettledPair (k : Int) (f : Flexibility) (t : Task) : Prop extends Linked k f t where
  single : f.stoppingTime.low = f.stoppingTime.high
  narrow : f.runningTime.high ≤ Quantity.greatest
  settled : WellFormed f t ∨ Stuck f t

/-- The task of a day whose length does not fit is stuck. -/
theorem settledPair_offeredDay {id start stop stored : Int} {c : DeviceConfig} (hid : 0 ≤ id) :
    SettledPair id (offeredDay id start stop stored c)
      (Task.idle id id true start (Quantity.low32 (stop - start))) where
  toLinked := ⟨hid, rfl, rfl, rfl, rfl⟩
  single := rfl
  narrow := Quantity.low32_le_greatest _
  settled := by
    by_cases hstuck : stop < start ∨ start + Quantity.low32 (stop - start) < stop
    · exact .inr hstuck
    · have hnarrow := Quantity.low32_le_greatest (stop - start)
      refine .inl (WellFormed.offeredDay (by omega) ?_)
      apply Quantity.low32_eq_self
      · simp only [Quantity.least]
        omega
      · omega

/-- A profile that fits where the task starts shows that the task is well formed. -/
theorem SettledPair.wellFormed {k : Int} {f : Flexibility} {t : Task} {power : PowerProfile}
    (h : SettledPair k f t) (hfits : f.Fits t.startingTime power) : WellFormed f t := by
  apply h.settled.resolve_right
  rintro hstuck
  obtain ⟨last, hlast, hhigh, hstop⟩ := hfits.stops
  have hnonneg := hfits.last_nonneg hlast
  have hsingle := h.single
  rw [Interval.contains_iff] at hstop
  simp only [Stuck] at hstuck
  omega

/-- Whatever happens to a device, the task of each pair is well formed or stuck. -/
theorem settledInvariant : PairInvariant (fun _ => True) SettledPair where
  linked h := h.toLinked
  newDay hid _ := settledPair_offeredDay hid
  localDay _ _ _ hid := settledPair_offeredDay hid
  corridors _ _ h :=
    { h with settled := h.settled.imp_left fun hwell => { hwell with } }
  scheduled h _ hfits :=
    { h with
      task := h.task, named := h.named, settled := .inl (WellFormed.scheduled h.single hfits) }
  adapted h hfits :=
    { h with settled := .inl (WellFormed.of_fits hfits (h.wellFormed hfits).ends) }
  rested h := { h with settled := h.settled.imp_left WellFormed.rested }
  repaired h hcovers :=
    { h with settled := h.settled.imp_left fun hwell => hwell.repaired h.narrow hcovers }
  compressed h := { h with settled := h.settled.imp_left WellFormed.compressed }

end DeviceState
end SiteDispatch
