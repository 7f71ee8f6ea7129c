/-
  SiteDispatch.Proofs.Flexibility.Validity

  The validity gate is the validity relation.

  `validate` hops over breakpoints: the power corridor is looked at where profile
  or corridor change, the energy corridor where profile or corridor have a key.
  `Fits` says the same of every second. Both loops are shown to decide their half
  of the relation for any start and any remaining breakpoints, which is what the
  inductions need; the two halves and the checks on the end of the profile then
  make up the gate.
-/

import SiteDispatch.Flexibility.Validity
import SiteDispatch.Proofs.Profile.Compress

namespace SiteDispatch
namespace Flexibility

open PowerProfile

variable {f : Flexibility} {p : PowerProfile}

/-! ## The relation -/

/-- Offset up to which the power is bounded: the last key of the profile or of the
    power corridor, whichever is later. -/
def horizon (f : Flexibility) (p : PowerProfile) : Int :=
  max (p.lastKey?.getD 0) (f.powerCorridor.lastKey?.getD 0)

/-- The power in force at `t` lies in the power corridor in force at `t`. -/
def PowerFits (f : Flexibility) (p : PowerProfile) (t : Int) : Prop :=
  ∃ bound, f.powerCorridor.floorValue? t = some bound ∧ bound.contains (powerAt p t)

/-- The energy delivered by `k`, summed over the seconds, lies in the energy
    corridor at `k`. -/
def EnergyFits (f : Flexibility) (p : PowerProfile) (k : Int) : Prop :=
  ∃ bound, f.energyConstraint? k = some bound ∧
    bound.contains (∑ t ∈ Finset.Ico 0 k, powerAt p t)

/-- A profile started at `startingTime` stays inside the envelope. -/
structure Fits (f : Flexibility) (startingTime : Int) (p : PowerProfile) : Prop where
  starts : 0 ∈ p.keys
  stops : ∃ stop, p.lastEntry? = some (stop, 0) ∧ stop ≤ f.runningTime.high ∧
    f.stoppingTime.contains (startingTime + stop)
  power : ∀ t, 0 ≤ t → t < f.horizon p → f.PowerFits p t
  energy : ∀ k, 0 < k → k ∈ p.keys ∨ k ∈ f.energyCorridor.keys → f.EnergyFits p k

/-! ## Reading the energy corridor -/

/-- At a key the stored bound is in force. -/
theorem energyConstraint?_of_get? {t : Int} {bound : Interval}
    (h : f.energyCorridor.get? t = some bound) : f.energyConstraint? t = some bound := by
  have hfloor : f.energyCorridor.floorEntry? t = some (t, bound) :=
    OrderedMap.floorEntry?_eq_some_iff.2 ⟨h, Int.le_refl t, fun j hlt hle => absurd hlt (by omega)⟩
  rw [energyConstraint?, hfloor]
  simp

/-- After the last key its bound stays in force. -/
theorem energyConstraint?_of_lastEntry? {k t : Int} {bound : Interval}
    (h : f.energyCorridor.lastEntry? = some (k, bound)) (hkt : k ≤ t) :
    f.energyConstraint? t = some bound := by
  obtain ⟨hget, hmax⟩ := OrderedMap.lastEntry?_eq_some_iff.1 h
  -- There is no further bound to which the corridor could lead over.
  have hnone : ∀ j, k < j → f.energyCorridor.get? j = none := fun j hj =>
    OrderedMap.get?_eq_none_iff.2 fun hmem => hmax j hmem hj
  have hfloor : f.energyCorridor.floorEntry? t = some (k, bound) :=
    OrderedMap.floorEntry?_eq_some_iff.2 ⟨hget, hkt, fun j hj _ => hnone j hj⟩
  have hhigher : f.energyCorridor.higherEntry? t = none := by
    rw [← Option.map_eq_none_iff (f := (·.1))]
    exact OrderedMap.higherKey?_eq_none_iff.2 fun j hj =>
      Int.le_trans (Int.not_lt.1 (hmax j hj)) hkt
  rw [energyConstraint?, hfloor, hhigher]
  simp

/-! ## The two loops -/

theorem powerFits_iff_of_no_key {s t : Int} (hts : t ≤ s)
    (hkeys : ∀ j, j ∈ p.keys ∨ j ∈ f.powerCorridor.keys → t < j → s < j) :
    f.PowerFits p s ↔ f.PowerFits p t := by
  have hpower : powerAt p s = powerAt p t := by
    apply powerAt_eq_of_no_key hts
    intro j htj hjs
    rw [OrderedMap.get?_eq_none_iff]
    intro hmem
    have := hkeys j (.inl hmem) htj
    omega
  have hcorridor : f.powerCorridor.floorValue? s = f.powerCorridor.floorValue? t := by
    apply OrderedMap.floorValue?_eq_of_no_key hts
    intro j htj hjs
    rw [OrderedMap.get?_eq_none_iff]
    intro hmem
    have := hkeys j (.inr hmem) htj
    omega
  rw [PowerFits, PowerFits, hpower, hcorridor]

/-- The power loop goes on exactly if the power at `t` is admissible. -/
theorem checkPowerAlong_cons_eq_ok_iff {t next : Int} {later : List Int} :
    checkPowerAlong f p t (next :: later) = .ok () ↔
      f.PowerFits p t ∧ checkPowerAlong f p next later = .ok () := by
  rw [checkPowerAlong, PowerFits]
  cases hfloor : f.powerCorridor.floorValue? t with
  | none => simp
  | some bound =>
      by_cases hin : bound.contains (powerAt p t)
      · simp [hin]
      · simp [hin]

/-- The power loop started at `t` looks at every second up to its last breakpoint,
    if no key after `t` is missing among the breakpoints. -/
theorem checkPowerAlong_eq_ok_iff (f : Flexibility) (p : PowerProfile) :
    ∀ (later : List Int) (t : Int), (t :: later).Pairwise (· < ·) →
      (∀ j, j ∈ p.keys ∨ j ∈ f.powerCorridor.keys → t < j → j ∈ later) →
      (checkPowerAlong f p t later = .ok () ↔
        ∀ s, t ≤ s → (∃ k ∈ later, s < k) → f.PowerFits p s)
  | [], t, _, _ => by simp [checkPowerAlong]
  | next :: later, t, hasc, hkeys => by
      obtain ⟨ht, hrest⟩ := List.pairwise_cons.1 hasc
      have htn : t < next := ht next (by simp)
      -- Neither function changes before the next breakpoint.
      have hsame : ∀ s, t ≤ s → s < next → (f.PowerFits p s ↔ f.PowerFits p t) := by
        intro s hts hsn
        apply powerFits_iff_of_no_key hts
        intro j hj htj
        exact Int.lt_of_lt_of_le hsn (next_le_of_isKey (List.pairwise_cons.1 hrest).1 hkeys hj htj)
      have ih := checkPowerAlong_eq_ok_iff f p later next hrest fun j hj hnj =>
        mem_later_of_isKey htn hkeys hj hnj
      rw [checkPowerAlong_cons_eq_ok_iff, ih]
      constructor
      · -- A second lies before the next breakpoint or is left to the rest of the loop.
        rintro ⟨hfit, hall⟩ s hts ⟨k, hk, hsk⟩
        by_cases hsn : s < next
        · exact (hsame s hts hsn).2 hfit
        · refine hall s (by omega) ⟨k, ?_, hsk⟩
          rcases List.mem_cons.1 hk with rfl | hk
          · omega
          · exact hk
      · intro hall
        refine ⟨hall t (Int.le_refl t) ⟨next, by simp, htn⟩, fun s hns hs => ?_⟩
        obtain ⟨k, hk, hsk⟩ := hs
        exact hall s (by omega) ⟨k, by simp [hk], hsk⟩

/-- The energy loop goes on exactly if what has been delivered by the next breakpoint
    is admissible. -/
theorem checkEnergyAlong_cons_eq_ok_iff {t next : Int} {later : List Int}
    (htotal : ∑ s ∈ Finset.Ico 0 t, powerAt p s + powerAt p t * (next - t)
      = ∑ s ∈ Finset.Ico 0 next, powerAt p s) :
    checkEnergyAlong f p (∑ s ∈ Finset.Ico 0 t, powerAt p s) t (next :: later) = .ok () ↔
      f.EnergyFits p next ∧
        checkEnergyAlong f p (∑ s ∈ Finset.Ico 0 next, powerAt p s) next later = .ok () := by
  simp only [checkEnergyAlong, EnergyFits, htotal]
  cases hbound : f.energyConstraint? next with
  | none => simp
  | some bound =>
      by_cases hin : bound.contains (∑ s ∈ Finset.Ico 0 next, powerAt p s)
      · simp [hin]
      · simp [hin]

/-- The energy loop started at `t` with what has been delivered by then looks at
    every breakpoint. -/
theorem checkEnergyAlong_eq_ok_iff (f : Flexibility) (p : PowerProfile) :
    ∀ (later : List Int) (t : Int), 0 ≤ t → (t :: later).Pairwise (· < ·) →
      (∀ j, j ∈ p.keys → t < j → j ∈ later) →
      (checkEnergyAlong f p (∑ s ∈ Finset.Ico 0 t, powerAt p s) t later = .ok () ↔
        ∀ k ∈ later, f.EnergyFits p k)
  | [], t, _, _, _ => by simp [checkEnergyAlong]
  | next :: later, t, h0, hasc, hkeys => by
      obtain ⟨ht, hrest⟩ := List.pairwise_cons.1 hasc
      have htn : t < next := ht next (by simp)
      -- The power stays that of `t` before the next breakpoint, so one product is the
      -- whole sum.
      have hnone : ∀ j, t < j → j < next → p.get? j = none := by
        intro j htj hjn
        rw [OrderedMap.get?_eq_none_iff]
        intro hmem
        have := next_le_of_isKey (List.pairwise_cons.1 hrest).1 hkeys hmem htj
        omega
      have htotal : ∑ s ∈ Finset.Ico 0 t, powerAt p s + powerAt p t * (next - t)
          = ∑ s ∈ Finset.Ico 0 next, powerAt p s := by
        rw [← sum_Ico_of_no_key htn.le hnone, sum_Ico_add_sum_Ico _ h0 htn.le]
      have ih := checkEnergyAlong_eq_ok_iff f p later next (by omega) hrest fun j hj hnj =>
        mem_later_of_isKey htn hkeys hj hnj
      rw [checkEnergyAlong_cons_eq_ok_iff htotal, ih, List.forall_mem_cons]

/-! ## The gate -/

theorem lt_horizon_iff {t : Int} (h0 : 0 ≤ t) :
    t < f.horizon p ↔ ∃ k, (k ∈ p.keys ∨ k ∈ f.powerCorridor.keys) ∧ t < k := by
  have hlast : ∀ {α : Type} (m : OrderedMap Int α),
      t < m.lastKey?.getD 0 ↔ ∃ k ∈ m.keys, t < k := by
    intro α m
    cases hm : m.lastKey? with
    | none =>
        have hnil : m.keys = [] := List.getLast?_eq_none_iff.1 hm
        simp [hnil, h0]
    | some last =>
        obtain ⟨hmem, hmax⟩ := OrderedMap.lastKey?_eq_some_iff.1 hm
        constructor
        · exact fun hlt => ⟨last, hmem, hlt⟩
        · rintro ⟨k, hk, hlt⟩
          have := hmax k hk
          simp only [Option.getD_some]
          omega
  rw [horizon, lt_max_iff, hlast, hlast]
  constructor
  · rintro (⟨k, hk, hlt⟩ | ⟨k, hk, hlt⟩)
    · exact ⟨k, .inl hk, hlt⟩
    · exact ⟨k, .inr hk, hlt⟩
  · rintro ⟨k, hk | hk, hlt⟩
    · exact .inl ⟨k, hk, hlt⟩
    · exact .inr ⟨k, hk, hlt⟩

theorem checkPower_eq_ok_iff :
    f.checkPower p = .ok () ↔ ∀ t, 0 ≤ t → t < f.horizon p → f.PowerFits p t := by
  have hkeys : ∀ j, j ∈ p.keys ∨ j ∈ f.powerCorridor.keys → 0 < j →
      j ∈ breakpoints (p.keys ++ f.powerCorridor.keys) :=
    fun j hj h0 => mem_breakpoints.2 ⟨List.mem_append.2 hj, h0⟩
  rw [checkPower, checkPowerAlong_eq_ok_iff f p _ 0 (pairwise_zero_breakpoints _) hkeys]
  -- The last breakpoint is the horizon.
  constructor
  · intro hall t h0 hlt
    obtain ⟨k, hk, htk⟩ := (lt_horizon_iff h0).1 hlt
    exact hall t h0 ⟨k, hkeys k hk (by omega), htk⟩
  · rintro hall t h0 ⟨k, hk, htk⟩
    have hmem := List.mem_append.1 (mem_breakpoints.1 hk).1
    exact hall t h0 ((lt_horizon_iff h0).2 ⟨k, hmem, htk⟩)

theorem checkEnergy_eq_ok_iff :
    f.checkEnergy p = .ok () ↔
      ∀ k, 0 < k → k ∈ p.keys ∨ k ∈ f.energyCorridor.keys → f.EnergyFits p k := by
  have hloop := checkEnergyAlong_eq_ok_iff f p
    (breakpoints (p.keys ++ f.energyCorridor.keys)) 0 (Int.le_refl 0)
    (pairwise_zero_breakpoints _)
    fun j hj h0 => mem_breakpoints.2 ⟨List.mem_append_left _ hj, h0⟩
  rw [Finset.Ico_self, Finset.sum_empty] at hloop
  rw [checkEnergy, hloop]
  constructor
  · exact fun hall k h0 hk => hall k (mem_breakpoints.2 ⟨List.mem_append.2 hk, h0⟩)
  · intro hall k hk
    obtain ⟨hmem, h0⟩ := mem_breakpoints.1 hk
    exact hall k h0 (List.mem_append.1 hmem)

/-- The gate accepts exactly if the end of the profile is in order and both loops
    run through. -/
theorem validate_eq_ok_iff_checks {startingTime : Int} :
    f.validate startingTime p = .ok () ↔
      0 ∈ p.keys ∧
      (∃ stop, p.lastEntry? = some (stop, 0) ∧ stop ≤ f.runningTime.high ∧
        f.stoppingTime.contains (startingTime + stop)) ∧
      f.checkPower p = .ok () ∧ f.checkEnergy p = .ok () := by
  rw [validate, ← OrderedMap.contains_iff_mem_keys]
  cases hzero : p.contains 0 with
  | false => simp
  | true =>
      cases hlast : p.lastEntry? with
      | none => simp
      | some e =>
          obtain ⟨length, last⟩ := e
          simp only [Option.some.injEq, Prod.mk.injEq, true_and]
          -- The checks in the order in which the gate makes them.
          by_cases hopen : last = 0
          · by_cases hlong : f.runningTime.high < length
            · have hnle : ¬ length ≤ f.runningTime.high := by omega
              simp [hopen, hlong, hnle]
            · have hle : length ≤ f.runningTime.high := by omega
              by_cases hstop : f.stoppingTime.contains (startingTime + length)
              · cases hpower : f.checkPower p with
                | error e => simp [hopen, hlong, hstop]
                | ok _ => simp [hopen, hlong, hle, hstop]
              · simp [hopen, hlong, hstop]
          · simp [hopen]

theorem validate_eq_ok_iff_fits {startingTime : Int} :
    f.validate startingTime p = .ok () ↔ f.Fits startingTime p := by
  rw [validate_eq_ok_iff_checks, checkPower_eq_ok_iff, checkEnergy_eq_ok_iff]
  constructor
  · rintro ⟨hstarts, hstops, hpower, henergy⟩
    exact ⟨hstarts, hstops, hpower, henergy⟩
  · rintro ⟨hstarts, hstops, hpower, henergy⟩
    exact ⟨hstarts, hstops, hpower, henergy⟩

theorem accepts_iff_fits {startingTime : Int} :
    f.accepts startingTime p = true ↔ f.Fits startingTime p := by
  rw [← validate_eq_ok_iff_fits, accepts]
  cases f.validate startingTime p <;> simp

/-- Fitting depends on the power from offset 0 on and on the keys after it only. -/
theorem Fits.of_agree {startingTime : Int} {q : PowerProfile} (h : f.Fits startingTime p)
    (hzero : 0 ∈ q.keys) (hlast : q.lastEntry? = p.lastEntry?)
    (hpower : ∀ t, 0 ≤ t → powerAt q t = powerAt p t)
    (hkeys : ∀ k ∈ q.keys, 0 < k → k ∈ p.keys) : f.Fits startingTime q := by
  have hhorizon : f.horizon q = f.horizon p := by
    rw [horizon, horizon, q.lastKey?_eq_map, p.lastKey?_eq_map, hlast]
  refine ⟨hzero, by rw [hlast]; exact h.stops, ?_, ?_⟩
  · intro t ht hlt
    rw [PowerFits, hpower t ht]
    exact h.power t ht (hhorizon ▸ hlt)
  · intro k hk hkey
    have hsum : ∑ t ∈ Finset.Ico 0 k, powerAt q t = ∑ t ∈ Finset.Ico 0 k, powerAt p t :=
      Finset.sum_congr rfl fun t ht => hpower t (Finset.mem_Ico.1 ht).1
    rw [EnergyFits, hsum]
    exact h.energy k hk (hkey.imp_left fun hmem => hkeys k hmem hk)

theorem Fits.compress {startingTime runningTime : Int} (h : f.Fits startingTime p) :
    f.Fits startingTime (PowerProfile.compress p runningTime) := by
  obtain ⟨last, hlast, -⟩ := h.stops
  refine h.of_agree (zero_mem_keys_compress h.starts) ?_ (fun t _ => powerAt_compress _ _ t)
    fun k hk _ => mem_keys_of_compress hk
  rw [hlast, lastEntry?_compress hlast]

/-- The value stored under the last key is the one in force there. -/
theorem lastEntry?_eq_iff_powerAt {stop watts : Int} :
    p.lastEntry? = some (stop, watts) ↔ p.lastKey? = some stop ∧ powerAt p stop = watts := by
  rw [OrderedMap.lastEntry?_eq_some_iff, OrderedMap.lastKey?_eq_some_iff,
    OrderedMap.mem_keys_iff_get?]
  constructor
  · rintro ⟨hget, hmax⟩
    exact ⟨⟨⟨watts, hget⟩, hmax⟩, powerAt_of_get? hget⟩
  · rintro ⟨⟨⟨v, hget⟩, hmax⟩, rfl⟩
    exact ⟨by rw [hget, powerAt_of_get? hget], hmax⟩

/-- `validate` accepts a profile exactly if (1) it has a value at offset 0, (2) its
    last value is 0 W and comes no later than the longest running time, (3) it ends
    at an admissible instant, (4) at every second before the last key of profile
    and power corridor the power lies in the corridor in force, and (5) at every
    later key of profile and energy corridor the energy delivered so far lies in
    the energy bound. -/
theorem validate_accepts_iff_every_second (f : Flexibility) (startingTime : Int)
    (p : PowerProfile) :
    f.validate startingTime p = .ok () ↔
      0 ∈ p.keys ∧
      (∃ stop, p.lastKey? = some stop ∧
        (powerAt p stop = 0 ∧ stop ≤ f.runningTime.high) ∧
        f.stoppingTime.contains (startingTime + stop)) ∧
      (∀ t, 0 ≤ t → t < max (p.lastKey?.getD 0) (f.powerCorridor.lastKey?.getD 0) →
        ∃ bound, f.powerCorridor.floorValue? t = some bound ∧ bound.contains (powerAt p t)) ∧
      (∀ k, 0 < k → k ∈ p.keys ∨ k ∈ f.energyCorridor.keys →
        ∃ bound, f.energyConstraint? k = some bound ∧
          bound.contains (∑ t ∈ Finset.Ico 0 k, powerAt p t)) := by
  rw [validate_eq_ok_iff_checks, checkPower_eq_ok_iff, checkEnergy_eq_ok_iff]
  simp only [lastEntry?_eq_iff_powerAt, and_assoc]
  rfl

end Flexibility
end SiteDispatch
