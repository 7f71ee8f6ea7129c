/-
  SiteDispatch.Proofs.Flexibility.Refusal

  Which energy error the gate answers, and that it answers one although nothing
  bounds the energy.

  The energy loop stops at the first breakpoint whose energy leaves the bound in
  force. A corridor with both ends open stores the edges of the 32-bit range, and
  the loop reads them as numbers: a profile that delivers more than 2147483647 Ws
  by one of its breakpoints is refused.
-/

import SiteDispatch.Proofs.Flexibility.Validity

namespace SiteDispatch
namespace Flexibility

open PowerProfile

variable {f : Flexibility} {p : PowerProfile} {k ws : Int} {bound : Interval}

/-! ## The first breakpoint out of bounds -/

/-- The energy delivered by `k` is `ws` and lies outside the energy corridor, which
    is `bound` there. -/
def EnergyLeaves (f : Flexibility) (p : PowerProfile) (k ws : Int) (bound : Interval) : Prop :=
  f.energyConstraint? k = some bound ∧ ws = ∑ t ∈ Finset.Ico 0 k, powerAt p t ∧
    bound.contains ws = false

theorem EnergyLeaves.not_energyFits (h : f.EnergyLeaves p k ws bound) : ¬ f.EnergyFits p k := by
  rintro ⟨bound', hbound', hin⟩
  obtain ⟨hbound, rfl, hout⟩ := h
  obtain rfl : bound = bound' := Option.some.inj (hbound.symm.trans hbound')
  rw [hout] at hin
  exact Bool.false_ne_true hin

/-- The energy loop answers an energy error at the next breakpoint, or goes on and
    answers it for the rest. -/
theorem checkEnergyAlong_cons_eq_energy_iff {t next : Int} {later : List Int}
    (htotal : ∑ s ∈ Finset.Ico 0 t, powerAt p s + powerAt p t * (next - t)
      = ∑ s ∈ Finset.Ico 0 next, powerAt p s) :
    checkEnergyAlong f p (∑ s ∈ Finset.Ico 0 t, powerAt p s) t (next :: later)
        = .error (.energy k ws bound) ↔
      (k = next ∧ f.EnergyLeaves p k ws bound) ∨
      (f.EnergyFits p next ∧
        checkEnergyAlong f p (∑ s ∈ Finset.Ico 0 next, powerAt p s) next later
          = .error (.energy k ws bound)) := by
  simp only [checkEnergyAlong, EnergyFits, htotal]
  cases hbound : f.energyConstraint? next with
  | none =>
      -- Without a bound in force the loop stops with another error.
      have hnone : ¬ (k = next ∧ f.EnergyLeaves p k ws bound) := by
        rintro ⟨rfl, hleaves, -⟩
        rw [hbound] at hleaves
        cases hleaves
      simp [hnone]
  | some inForce =>
      by_cases hin : inForce.contains (∑ s ∈ Finset.Ico 0 next, powerAt p s)
      · have hstays : ¬ (k = next ∧ f.EnergyLeaves p k ws bound) := by
          rintro ⟨rfl, hleaves⟩
          exact hleaves.not_energyFits ⟨inForce, hbound, hin⟩
        simp [hin, hstays]
      · have hrest : ¬ ∃ b, some inForce = some b ∧
            b.contains (∑ s ∈ Finset.Ico 0 next, powerAt p s) = true := by
          rintro ⟨b, hb, hb'⟩
          exact hin (Option.some.inj hb ▸ hb')
        rw [or_iff_left fun h => hrest h.1]
        dsimp only
        rw [if_neg hin, Except.error.injEq, ValidityError.energy.injEq]
        constructor
        · rintro ⟨rfl, rfl, rfl⟩
          exact ⟨rfl, hbound, rfl, Bool.eq_false_iff.2 hin⟩
        · rintro ⟨rfl, hleaves, hws, -⟩
          exact ⟨rfl, hws.symm, Option.some.inj (hbound.symm.trans hleaves)⟩

/-- The energy loop started at `t` with what has been delivered by then stops at the
    first breakpoint that leaves the corridor. -/
theorem checkEnergyAlong_eq_energy_iff (f : Flexibility) (p : PowerProfile) :
    ∀ (later : List Int) (t : Int), 0 ≤ t → (t :: later).Pairwise (· < ·) →
      (∀ j, j ∈ p.keys → t < j → j ∈ later) →
      (checkEnergyAlong f p (∑ s ∈ Finset.Ico 0 t, powerAt p s) t later
          = .error (.energy k ws bound) ↔
        k ∈ later ∧ f.EnergyLeaves p k ws bound ∧ ∀ j ∈ later, j < k → f.EnergyFits p j)
  | [], t, _, _, _ => by simp [checkEnergyAlong]
  | next :: later, t, h0, hasc, hkeys => by
      obtain ⟨ht, hrest⟩ := List.pairwise_cons.1 hasc
      have htn : t < next := ht next (by simp)
      have hnext := (List.pairwise_cons.1 hrest).1
      have hnone : ∀ j, t < j → j < next → p.get? j = none := by
        intro j htj hjn
        rw [OrderedMap.get?_eq_none_iff]
        intro hmem
        have := next_le_of_isKey hnext hkeys hmem htj
        omega
      have htotal : ∑ s ∈ Finset.Ico 0 t, powerAt p s + powerAt p t * (next - t)
          = ∑ s ∈ Finset.Ico 0 next, powerAt p s := by
        rw [← sum_Ico_of_no_key htn.le hnone, sum_Ico_add_sum_Ico _ h0 htn.le]
      have ih := checkEnergyAlong_eq_energy_iff f p later next (by omega) hrest fun j hj hnj =>
        mem_later_of_isKey htn hkeys hj hnj
      rw [checkEnergyAlong_cons_eq_energy_iff htotal, ih]
      constructor
      · rintro (⟨rfl, hleaves⟩ | ⟨hfits, hmem, hleaves, hbefore⟩)
        · refine ⟨List.mem_cons_self, hleaves, fun j hj hlt => ?_⟩
          -- The next breakpoint is the earliest.
          rcases List.mem_cons.1 hj with rfl | hj
          · omega
          · have := hnext j hj
            omega
        · refine ⟨List.mem_cons_of_mem _ hmem, hleaves, fun j hj hlt => ?_⟩
          rcases List.mem_cons.1 hj with rfl | hj
          · exact hfits
          · exact hbefore j hj hlt
      · rintro ⟨hmem, hleaves, hbefore⟩
        rcases List.mem_cons.1 hmem with rfl | hmem
        · exact .inl ⟨rfl, hleaves⟩
        · exact .inr ⟨hbefore next (by simp) (hnext k hmem), hmem, hleaves,
            fun j hj hlt => hbefore j (by simp [hj]) hlt⟩

/-! ## The gate -/

theorem checkEnergy_eq_energy_iff :
    f.checkEnergy p = .error (.energy k ws bound) ↔
      (0 < k ∧ (k ∈ p.keys ∨ k ∈ f.energyCorridor.keys)) ∧ f.EnergyLeaves p k ws bound ∧
      ∀ j, 0 < j → j < k → j ∈ p.keys ∨ j ∈ f.energyCorridor.keys → f.EnergyFits p j := by
  have hloop := @checkEnergyAlong_eq_energy_iff k ws bound f p
    (breakpoints (p.keys ++ f.energyCorridor.keys)) 0 (Int.le_refl 0)
    (pairwise_zero_breakpoints _)
    fun j hj h0 => mem_breakpoints.2 ⟨List.mem_append_left _ hj, h0⟩
  have hbreak : ∀ j, j ∈ breakpoints (p.keys ++ f.energyCorridor.keys) ↔
      0 < j ∧ (j ∈ p.keys ∨ j ∈ f.energyCorridor.keys) := fun j => by
    rw [mem_breakpoints, List.mem_append, and_comm]
  rw [Finset.Ico_self, Finset.sum_empty] at hloop
  rw [checkEnergy, hloop]
  simp only [hbreak]
  constructor
  · rintro ⟨hkey, hleaves, hbefore⟩
    exact ⟨hkey, hleaves, fun j h0 hlt hj => hbefore j ⟨h0, hj⟩ hlt⟩
  · rintro ⟨hkey, hleaves, hbefore⟩
    exact ⟨hkey, hleaves, fun j hj hlt => hbefore j hj.1 hlt hj.2⟩

/-- The power loop answers no energy error. -/
theorem checkPowerAlong_ne_energy (f : Flexibility) (p : PowerProfile) (later : List Int)
    (t : Int) : checkPowerAlong f p t later ≠ .error (.energy k ws bound) := by
  induction later generalizing t with
  | nil => simp [checkPowerAlong]
  | cons next later ih =>
      rw [checkPowerAlong]
      cases f.powerCorridor.floorValue? t with
      | none => simp
      | some inForce =>
          by_cases hin : inForce.contains (powerAt p t)
          · simpa [hin] using ih next
          · simp [hin]

/-- The energy loop speaks only when everything before it has passed. -/
theorem validate_eq_energy_iff {startingTime : Int} :
    f.validate startingTime p = .error (.energy k ws bound) ↔
      (0 ∈ p.keys ∧
        (∃ stop, p.lastEntry? = some (stop, 0) ∧ stop ≤ f.runningTime.high ∧
          f.stoppingTime.contains (startingTime + stop)) ∧
        f.checkPower p = .ok ()) ∧
      f.checkEnergy p = .error (.energy k ws bound) := by
  rw [validate, ← OrderedMap.contains_iff_mem_keys]
  cases hzero : p.contains 0 with
  | false => simp
  | true =>
      cases hlast : p.lastEntry? with
      | none => simp
      | some e =>
          obtain ⟨length, last⟩ := e
          simp only [Option.some.injEq, Prod.mk.injEq, true_and]
          by_cases hopen : last = 0
          · by_cases hlong : f.runningTime.high < length
            · have hnle : ¬ length ≤ f.runningTime.high := by omega
              simp [hopen, hlong, hnle]
            · have hle : length ≤ f.runningTime.high := by omega
              by_cases hstop : f.stoppingTime.contains (startingTime + length)
              · cases hpower : f.checkPower p with
                | error e =>
                    have hne : e ≠ .energy k ws bound := by
                      rintro rfl
                      exact checkPowerAlong_ne_energy f p _ 0 hpower
                    simp [hopen, hlong, hstop, hne]
                | ok _ => simp [hopen, hlong, hle, hstop]
              · simp [hopen, hlong, hstop]
          · simp [hopen]

/-! ## A corridor with open ends -/

theorem energyConstraint?_of_open (hopen : f.energyCorridor = .singleton 0 Interval.unbounded)
    {t : Int} (h0 : 0 ≤ t) : f.energyConstraint? t = some Interval.unbounded := by
  refine energyConstraint?_of_lastEntry? (k := 0) ?_ h0
  rw [hopen]
  rfl

/-- Such a corridor has no breakpoint after offset 0. -/
theorem mem_keys_or_iff_of_open (hopen : f.energyCorridor = .singleton 0 Interval.unbounded)
    {j : Int} (hj : 0 < j) : j ∈ p.keys ∨ j ∈ f.energyCorridor.keys ↔ j ∈ p.keys := by
  have hnot : j ∉ f.energyCorridor.keys := by
    rw [hopen, OrderedMap.mem_keys_iff_get?]
    rintro ⟨b, hb⟩
    rw [OrderedMap.get?_singleton, if_neg (by omega)] at hb
    cases hb
  exact or_iff_left hnot

theorem energyFits_iff_of_open (hopen : f.energyCorridor = .singleton 0 Interval.unbounded)
    {j : Int} (hj : 0 < j) :
    f.EnergyFits p j ↔ Quantity.least ≤ ∑ t ∈ Finset.Ico 0 j, powerAt p t ∧
      ∑ t ∈ Finset.Ico 0 j, powerAt p t ≤ Quantity.greatest := by
  simp only [EnergyFits, energyConstraint?_of_open hopen hj.le, Option.some.injEq,
    exists_eq_left', Interval.contains_iff]
  rfl

theorem energyLeaves_iff_of_open (hopen : f.energyCorridor = .singleton 0 Interval.unbounded)
    (hk : 0 < k) :
    f.EnergyLeaves p k ws bound ↔ bound = Interval.unbounded ∧
      ws = ∑ t ∈ Finset.Ico 0 k, powerAt p t ∧
      (ws < Quantity.least ∨ Quantity.greatest < ws) := by
  rw [EnergyLeaves, energyConstraint?_of_open hopen hk.le, Option.some.injEq, eq_comm]
  refine and_congr_right fun hbound => and_congr_right fun _ => ?_
  rw [hbound, Bool.eq_false_iff, ne_eq, Interval.contains_iff, not_and_or, Int.not_le, Int.not_le]
  rfl

/-- Where nothing bounds the energy the gate still answers energy errors: exactly for
    a profile that passes every other check and delivers, by one of its breakpoints,
    an energy outside the 32-bit range. The error names the first such breakpoint. -/
theorem open_energy_refused_iff (f : Flexibility) (startingTime : Int) (p : PowerProfile)
    (hopen : f.energyCorridor = .singleton 0 Interval.unbounded) (k ws : Int)
    (bound : Interval) :
    f.validate startingTime p = .error (.energy k ws bound) ↔
      (0 ∈ p.keys ∧
        (∃ stop, p.lastEntry? = some (stop, 0) ∧ stop ≤ f.runningTime.high ∧
          f.stoppingTime.contains (startingTime + stop)) ∧
        f.checkPower p = .ok ()) ∧
      (0 < k ∧ k ∈ p.keys) ∧
      (bound = Interval.unbounded ∧ ws = ∑ t ∈ Finset.Ico 0 k, powerAt p t ∧
        (ws < Quantity.least ∨ Quantity.greatest < ws)) ∧
      ∀ j ∈ p.keys, 0 < j → j < k →
        Quantity.least ≤ ∑ t ∈ Finset.Ico 0 j, powerAt p t ∧
        ∑ t ∈ Finset.Ico 0 j, powerAt p t ≤ Quantity.greatest := by
  rw [validate_eq_energy_iff, checkEnergy_eq_energy_iff]
  refine and_congr_right fun _ => ?_
  constructor
  · rintro ⟨⟨h0, hk⟩, hout, hbefore⟩
    refine ⟨⟨h0, (mem_keys_or_iff_of_open hopen h0).1 hk⟩,
      (energyLeaves_iff_of_open hopen h0).1 hout, fun j hj hpos hlt => ?_⟩
    exact (energyFits_iff_of_open hopen hpos).1 (hbefore j hpos hlt (.inl hj))
  · rintro ⟨⟨h0, hk⟩, hout, hbefore⟩
    refine ⟨⟨h0, .inl hk⟩, (energyLeaves_iff_of_open hopen h0).2 hout, fun j hpos hlt hj => ?_⟩
    have hjp := (mem_keys_or_iff_of_open hopen hpos).1 hj
    exact (energyFits_iff_of_open hopen hpos).2 (hbefore j hjp hpos hlt)

/-- Ten hours at up to 60 kW, with any amount of energy. -/
def tenHoursOpen : Flexibility where
  id := 1
  taskId := -1
  adaptable := false
  stoppingTime := ⟨36000, 36000⟩
  runningTime := ⟨0, 36000⟩
  powerCorridor := (OrderedMap.singleton 0 ⟨-60000, 60000⟩).insert 36000 Interval.zero
  energyCorridor := .singleton 0 Interval.unbounded

/-- 60 kW for ten hours, 600 kWh. -/
def sixtyKilowatts : PowerProfile := (OrderedMap.singleton 0 60000).insert 36000 0

theorem open_energy_refused_sixtyKilowatts :
    tenHoursOpen.energyCorridor = .singleton 0 Interval.unbounded ∧
      Quantity.greatest < 2160000000 ∧
      2160000000 = ∑ t ∈ Finset.Ico 0 36000, powerAt sixtyKilowatts t := by
  have hopen : tenHoursOpen.energyCorridor = .singleton 0 Interval.unbounded := rfl
  obtain ⟨-, -, ⟨-, hsum, hout⟩, -⟩ := (open_energy_refused_iff tenHoursOpen 0 sixtyKilowatts
    hopen 36000 2160000000 Interval.unbounded).1 (by decide +kernel)
  exact ⟨hopen, hout.resolve_left (by decide), hsum⟩

/-- A profile is refused for its energy although the corridor bounds none. -/
theorem sixtyKilowatts_refused :
    ¬ ∀ (f : Flexibility) (startingTime : Int) (p : PowerProfile),
      f.energyCorridor = .singleton 0 Interval.unbounded →
      ∀ k ws bound, f.validate startingTime p ≠ .error (.energy k ws bound) := by
  intro h
  exact h tenHoursOpen 0 sixtyKilowatts rfl 36000 2160000000 Interval.unbounded
    (by decide +kernel)

end Flexibility
end SiteDispatch
