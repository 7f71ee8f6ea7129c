/-
  SiteDispatch.Proofs.Planning.Draft

  What a planned task delivers stays inside its flexibility.

  A draft is followed piece by piece. `Draft.Sound` is what holds after each piece:
  the profile written so far keeps both corridors up to the offset reached, and the
  energy delivered so far is admissible there. The last point is what makes 0 W a
  way out of every piece: the energy corridor only widens from some offset on, and
  nothing has been delivered before that offset. A finished profile rests once its
  last piece is over, so it keeps the rest of the envelope as well.
-/

import Mathlib.Algebra.Order.Ring.Abs
import SiteDispatch.Proofs.Flexibility.Validity
import SiteDispatch.Proofs.Planning.Choice
import SiteDispatch.Proofs.Planning.Walk

namespace SiteDispatch

open PowerProfile

/-! ## What is asked of a flexibility -/

/-- The energy bound at `t` holds `total`. -/
def Flexibility.AdmitsEnergy (f : Flexibility) (t total : Int) : Prop :=
  ∃ bound, f.energyConstraint? t = some bound ∧ bound.contains total

/-- A task that can rest at any time: 0 W and 0 Ws are always admissible, and the
    energy corridor does not tighten from `r` on, before which the task is not
    planned or delivers nothing. -/
structure Plannable (w : PlanningWindow) (f : Flexibility) (task : Task) (r : Int) : Prop where
  grid : 1 ≤ w.slotLength
  buffer : 0 ≤ w.buffer
  reach : w.entry task ≤ Quantity.greatest
  lasts : 0 ≤ task.runningTime
  short : task.runningTime ≤ Quantity.greatest
  inTime : task.runningTime ≤ f.runningTime.high
  ends : f.stoppingTime.contains task.stop
  covered : ∃ k ∈ f.powerCorridor.keys, k ≤ 0
  rests : ∀ i ∈ f.powerCorridor.values, i.contains 0
  moderate : ∀ i ∈ f.powerCorridor.values,
    max |i.low| |i.high| * task.runningTime ≤ Quantity.greatest
  idles : ∀ t, 0 ≤ t → t ∈ f.energyCorridor.keys ∨ min (w.entry task) task.runningTime ≤ t →
    f.AdmitsEnergy t 0
  quiet : r ≤ w.entry task ∨
    ∀ t, 0 ≤ t → t < r → f.powerCorridor.floorValue? t = some Interval.zero
  widens : ∀ t u total, 0 ≤ t → r ≤ t → t ≤ u → f.AdmitsEnergy t total → f.AdmitsEnergy u total

/-! ## Profiles in the making -/

namespace Draft

/-- The powers chosen so far, at rest before the first of them. -/
def planned (d : Draft) : PowerProfile := OrderedMap.ofList ((0, 0) :: d.chosen.reverse)

theorem planned_nil (energy slotEnergy : Int) (ledger : List Int) :
    planned ⟨[], energy, slotEnergy, ledger⟩ = OrderedMap.singleton 0 0 := rfl

theorem planned_extend (f : Flexibility) (w : PlanningWindow) (goals : List (Option Int))
    (d : Draft) (p : Piece) :
    (d.extend f w goals p).planned = d.planned.insert p.start (choosePower f w goals d p) := by
  simp [planned, extend, OrderedMap.ofList, List.foldl_append]

/-- A draft that keeps the envelope up to the offset `here`. -/
structure Sound (f : Flexibility) (runningTime r here : Int) (d : Draft) : Prop where
  starts : 0 ∈ d.planned.keys
  keys : ∀ k ∈ d.planned.keys, 0 ≤ k ∧ (k = 0 ∨ k < here)
  total : d.energy = ∑ t ∈ Finset.Ico 0 here, powerAt d.planned t
  power : ∀ t, 0 ≤ t → t < here → f.PowerFits d.planned t
  energy : ∀ k, 0 < k → k ≤ here → k ∈ d.planned.keys ∨ k ∈ f.energyCorridor.keys →
    f.EnergyFits d.planned k
  admitted : f.AdmitsEnergy here d.energy
  moderate : |d.energy| * runningTime ≤ Quantity.greatest * here
  quiet : d.energy = 0 ∨ r ≤ here

end Draft

variable {w : PlanningWindow} {f : Flexibility} {task : Task} {r : Int} {d : Draft} {p : Piece}
  {goals : List (Option Int)}

theorem mem_keys_singleton {k j : Int} {v : Int} :
    j ∈ (OrderedMap.singleton k v).keys ↔ j = k := by
  simp [OrderedMap.keys, OrderedMap.singleton]

theorem powerAt_singleton_zero (k t : Int) : powerAt (OrderedMap.singleton k 0) t = 0 := by
  refine powerAt_eq_zero (fun j v hget => ?_) t
  rw [OrderedMap.get?_singleton] at hget
  split at hget
  · cases hget; rfl
  · cases hget

/-! ## A draft with one more piece -/

namespace Draft

theorem mem_keys_extend {k : Int} :
    k ∈ (d.extend f w goals p).planned.keys ↔ k = p.start ∨ k ∈ d.planned.keys := by
  rw [planned_extend, OrderedMap.mem_keys_iff_get?, OrderedMap.mem_keys_iff_get?]
  simp only [OrderedMap.get?_insert]
  split <;> simp_all

/-- Inside a slot nothing is booked. -/
theorem extend_of_open (f : Flexibility) (w : PlanningWindow) (goals : List (Option Int))
    (d : Draft) (hopen : p.closesSlot = false) :
    (d.extend f w goals p).slotEnergy
        = d.slotEnergy + choosePower f w goals d p * p.length ∧
      (d.extend f w goals p).ledger = d.ledger := by
  simp [extend, hopen]

/-- At its end a slot is booked with what has been delivered in it. -/
theorem extend_of_closed (f : Flexibility) (w : PlanningWindow) (goals : List (Option Int))
    (d : Draft) (hclose : p.closesSlot = true) :
    (d.extend f w goals p).slotEnergy = 0 ∧
      (d.extend f w goals p).ledger = book d.ledger p.slot
        (Quantity.nearestWattHours (d.slotEnergy + choosePower f w goals d p * p.length)) := by
  simp [extend, hclose]

/-- The profile is unchanged before the piece. -/
theorem powerAt_extend_of_lt {t : Int} (ht : t < p.start) :
    powerAt (d.extend f w goals p).planned t = powerAt d.planned t := by
  rw [planned_extend, powerAt, OrderedMap.floorValue?_insert_of_lt _ ht, powerAt]

theorem sum_extend_of_le {a k : Int} (hk : k ≤ p.start) :
    ∑ t ∈ Finset.Ico a k, powerAt (d.extend f w goals p).planned t
      = ∑ t ∈ Finset.Ico a k, powerAt d.planned t :=
  Finset.sum_congr rfl fun _ ht =>
    powerAt_extend_of_lt (Int.lt_of_lt_of_le (Finset.mem_Ico.1 ht).2 hk)

/-- From the start of the piece on, the profile is constant. -/
theorem powerAt_extend_of_le (hkeys : ∀ k ∈ d.planned.keys, k ≤ p.start) {t : Int}
    (ht : p.start ≤ t) : powerAt (d.extend f w goals p).planned t = choosePower f w goals d p := by
  rw [planned_extend, powerAt, OrderedMap.floorValue?_insert_of_le _ ht]
  · rfl
  · intro j hlt _
    rw [OrderedMap.get?_eq_none_iff]
    intro hj
    have := hkeys j hj
    omega

/-- What is delivered up to the end of the piece. -/
theorem sum_extend (hkeys : ∀ k ∈ d.planned.keys, k ≤ p.start) {a : Int} (ha : a ≤ p.start)
    (hlt : p.start < p.stop) :
    ∑ t ∈ Finset.Ico a p.stop, powerAt (d.extend f w goals p).planned t
      = ∑ t ∈ Finset.Ico a p.start, powerAt d.planned t
        + choosePower f w goals d p * p.length := by
  rw [← sum_Ico_add_sum_Ico _ ha hlt.le, sum_extend_of_le (Int.le_refl _),
    sum_Ico_const hlt.le fun t ht _ => powerAt_extend_of_le hkeys ht]
  rfl

variable {runningTime : Int}

theorem Sound.keys_le {here : Int} (hd : Sound f runningTime r here d) (h0 : 0 ≤ here) :
    ∀ k ∈ d.planned.keys, k ≤ here := by
  intro k hk
  have := hd.keys k hk
  omega

theorem Sound.total_extend (hd : Sound f runningTime r p.start d) (w : PlanningWindow)
    (goals : List (Option Int)) (h0 : 0 ≤ p.start) (hlt : p.start < p.stop) :
    (d.extend f w goals p).energy
      = ∑ t ∈ Finset.Ico 0 p.stop, powerAt (d.extend f w goals p).planned t := by
  rw [sum_extend (hd.keys_le h0) h0 hlt, ← hd.total]
  rfl

end Draft

/-! ## The invariant along the way -/

namespace Plannable

theorem exists_corridor (h : Plannable w f task r) {t : Int} (ht : 0 ≤ t) :
    ∃ i ∈ f.powerCorridor.values, f.powerCorridor.floorValue? t = some i := by
  obtain ⟨k, hk, hk0⟩ := h.covered
  obtain ⟨i, hi⟩ := OrderedMap.exists_floorValue?_of_key hk (show k ≤ t by omega)
  obtain ⟨j, -, hj⟩ := OrderedMap.exists_key_of_floorValue? hi
  exact ⟨i, OrderedMap.mem_values_iff_get?.2 ⟨j, hj⟩, hi⟩

/-- A profile may rest at any offset. -/
theorem powerFits_of_rest (h : Plannable w f task r) {q : PowerProfile} {t : Int} (ht : 0 ≤ t)
    (hq : powerAt q t = 0) : f.PowerFits q t := by
  obtain ⟨i, hi, hfloor⟩ := h.exists_corridor ht
  exact ⟨i, hfloor, hq ▸ h.rests i hi⟩

/-- Before the first piece nothing has been delivered. -/
theorem sound_start (h : Plannable w f task r) (ledger : List Int) :
    Draft.Sound f task.runningTime r (w.entry task) ⟨[], 0, 0, ledger⟩ := by
  have hentry := w.entry_nonneg task
  have hsum : ∀ k, ∑ t ∈ Finset.Ico 0 k, powerAt (OrderedMap.singleton 0 0) t = 0 := fun k =>
    Finset.sum_eq_zero fun _ _ => powerAt_singleton_zero 0 _
  exact
    { starts := by
        rw [Draft.planned_nil, mem_keys_singleton]
      keys := by
        intro k hk
        rw [Draft.planned_nil, mem_keys_singleton] at hk
        omega
      total := by
        rw [Draft.planned_nil, hsum]
      power := by
        intro t ht _
        apply h.powerFits_of_rest ht
        rw [Draft.planned_nil, powerAt_singleton_zero]
      energy := by
        intro k hk _ hkey
        rw [Draft.planned_nil, mem_keys_singleton] at hkey
        rw [Flexibility.EnergyFits, Draft.planned_nil, hsum]
        exact h.idles k (by omega) (.inl (hkey.resolve_left (by omega)))
      admitted := h.idles _ hentry (.inr (by omega))
      moderate := by
        have : 0 ≤ Quantity.greatest * w.entry task :=
          Int.mul_nonneg (by simp only [Quantity.greatest]; omega) hentry
        simpa using this
      quiet := .inl rfl }

/-- The corridor in force at the start of a piece holds the power chosen for it. -/
theorem exists_corridor_choosePower (h : Plannable w f task r) (goals : List (Option Int))
    (h0 : 0 ≤ p.start) (hlt : p.start < p.stop) :
    ∃ i ∈ f.powerCorridor.values, f.powerCorridor.floorValue? p.start = some i ∧
      i.contains (choosePower f w goals d p) := by
  obtain ⟨i, hi, hfloor⟩ := h.exists_corridor h0
  refine ⟨i, hi, hfloor, ?_⟩
  have hspec := choosePower_spec f w goals d hlt
  rw [hfloor, Option.getD_some] at hspec
  rcases hspec with hzero | ⟨hin, -⟩
  · rw [hzero]
    exact h.rests i hi
  · exact hin

/-- A piece delivers no more than its share of what a whole task may deliver. -/
theorem moderate_choosePower (h : Plannable w f task r) (goals : List (Option Int))
    (hd : Draft.Sound f task.runningTime r p.start d) (h0 : 0 ≤ p.start)
    (hlt : p.start < p.stop) :
    |d.energy + choosePower f w goals d p * p.length| * task.runningTime
      ≤ Quantity.greatest * p.stop := by
  obtain ⟨i, hi, -, hcontains⟩ := h.exists_corridor_choosePower (d := d) goals h0 hlt
  generalize choosePower f w goals d p = v at hcontains ⊢
  have hpower : |v| * task.runningTime ≤ Quantity.greatest := by
    obtain ⟨hlow, hhigh⟩ := Interval.contains_iff.1 hcontains
    exact (Int.mul_le_mul_of_nonneg_right (abs_le_max_abs_abs hlow hhigh) h.lasts).trans
      (h.moderate i hi)
  have hlength : 0 ≤ p.length := by
    simp only [Piece.length]
    omega
  -- What was delivered and what the piece adds each have their share.
  have htriangle : |d.energy + v * p.length| ≤ |d.energy| + |v| * p.length := by
    simpa [abs_mul, abs_of_nonneg hlength] using abs_add_le d.energy (v * p.length)
  calc |d.energy + v * p.length| * task.runningTime
      ≤ (|d.energy| + |v| * p.length) * task.runningTime :=
        Int.mul_le_mul_of_nonneg_right htriangle h.lasts
    _ = |d.energy| * task.runningTime + |v| * task.runningTime * p.length := by ring
    _ ≤ Quantity.greatest * p.start + Quantity.greatest * p.length :=
        Int.add_le_add hd.moderate (Int.mul_le_mul_of_nonneg_right hpower hlength)
    _ = Quantity.greatest * p.stop := by
        simp only [Piece.length]
        ring

/-- The energy delivered by the end of a piece is admissible. -/
theorem admitsEnergy_choosePower (h : Plannable w f task r) (goals : List (Option Int))
    (hd : Draft.Sound f task.runningTime r p.start d) (hentry : w.entry task ≤ p.start)
    (hlt : p.start < p.stop) (hle : p.stop ≤ task.runningTime) :
    f.AdmitsEnergy p.stop (d.energy + choosePower f w goals d p * p.length) := by
  have h0 := w.entry_nonneg task
  have hshort := h.short
  have hmoderate := h.moderate_choosePower goals hd (by omega) hlt
  rcases choosePower_spec f w goals d hlt with hzero | ⟨-, hkeeps⟩
  · -- Nothing is added, and the bound has not been tightened since.
    rw [hzero, Int.zero_mul, Int.add_zero]
    rcases hd.quiet with hnothing | hr
    · rw [hnothing]
      exact h.idles _ (by omega) (.inr (by omega))
    · exact h.widens _ _ _ (by omega) hr hlt.le hd.admitted
  · -- The bound is read at the offset itself, which fits into 32 bits.
    obtain ⟨bound, hbound, hidle⟩ := h.idles p.stop (by omega) (.inr (by omega))
    have hkeep : Quantity.low32 p.stop = p.stop := by
      apply Quantity.low32_eq_self
      · simp only [Quantity.least]
        omega
      · omega
    rw [hkeep, hbound, Option.getD_some] at hkeeps
    -- The total is narrow enough for an open end to be no bound.
    have htotal : |d.energy + choosePower f w goals d p * p.length| ≤ Quantity.greatest := by
      refine Int.le_of_mul_le_mul_right (hmoderate.trans ?_) (show 0 < task.runningTime by omega)
      exact Int.mul_le_mul_of_nonneg_left hle (by simp only [Quantity.greatest]; omega)
    obtain ⟨hleast, hgreatest⟩ := abs_le.1 htotal
    have hleast' : Quantity.least ≤ d.energy + choosePower f w goals d p * p.length := by
      simp only [Quantity.least, Quantity.greatest] at *
      omega
    have hbuffered :=
      Interval.keeps_of_keeps_buffered h.buffer hidle hleast' hgreatest hkeeps
    exact ⟨bound, hbound, Interval.contains_of_keeps hleast' hgreatest hbuffered⟩

/-- What is delivered before `r` is nothing. -/
theorem choosePower_eq_zero_of_quiet (h : Plannable w f task r) (hentry : w.entry task ≤ p.start)
    (hlt : p.start < p.stop) (hr : p.start < r) :
    choosePower f w goals d p = 0 := by
  have h0 := w.entry_nonneg task
  obtain ⟨i, -, hfloor, hcontains⟩ :=
    h.exists_corridor_choosePower (d := d) goals (by omega) hlt
  have hzero := h.quiet.resolve_left (by omega) p.start (by omega) hr
  rw [hfloor, Option.some.injEq] at hzero
  rw [hzero, Interval.contains_iff, Interval.zero] at hcontains
  exact Int.le_antisymm hcontains.2 hcontains.1

/-- A piece keeps the power corridor up to its end, if the corridor does not change
    inside it. -/
theorem powerFits_extend (h : Plannable w f task r) (goals : List (Option Int))
    (hd : Draft.Sound f task.runningTime r p.start d) (h0 : 0 ≤ p.start)
    (hlt : p.start < p.stop)
    (hkeys : ∀ k ∈ f.powerCorridor.keys, p.start < k → p.stop ≤ k) :
    ∀ t, 0 ≤ t → t < p.stop → f.PowerFits (d.extend f w goals p).planned t := by
  intro t ht htp
  by_cases hbefore : t < p.start
  · rw [Flexibility.PowerFits, Draft.powerAt_extend_of_lt hbefore]
    exact hd.power t ht hbefore
  · -- Inside the piece power and corridor are those at its start.
    obtain ⟨i, -, hfloor, hcontains⟩ :=
      h.exists_corridor_choosePower (d := d) goals h0 hlt
    have hsame : f.powerCorridor.floorValue? t = f.powerCorridor.floorValue? p.start := by
      apply OrderedMap.floorValue?_eq_of_no_key (by omega)
      intro j hj hjt
      rw [OrderedMap.get?_eq_none_iff]
      intro hmem
      have := hkeys j hmem hj
      omega
    rw [Flexibility.PowerFits, Draft.powerAt_extend_of_le (hd.keys_le h0) (by omega)]
    exact ⟨i, hsame.trans hfloor, hcontains⟩

/-- A piece keeps the energy corridor at all keys up to its end, if none of them lies
    inside it. -/
theorem energyFits_extend (h : Plannable w f task r) (goals : List (Option Int))
    (hd : Draft.Sound f task.runningTime r p.start d) (hentry : w.entry task ≤ p.start)
    (hlt : p.start < p.stop) (hle : p.stop ≤ task.runningTime)
    (hkeys : ∀ k ∈ f.energyCorridor.keys, p.start < k → p.stop ≤ k) :
    ∀ k, 0 < k → k ≤ p.stop →
      k ∈ (d.extend f w goals p).planned.keys ∨ k ∈ f.energyCorridor.keys →
      f.EnergyFits (d.extend f w goals p).planned k := by
  have h0 := w.entry_nonneg task
  intro k hk hkp hkey
  rw [Draft.mem_keys_extend, or_assoc] at hkey
  rcases Int.lt_trichotomy k p.start with hbefore | hstart | hinside
  · rw [Flexibility.EnergyFits, Draft.sum_extend_of_le hbefore.le]
    exact hd.energy k hk hbefore.le (hkey.resolve_left (by omega))
  · -- A key at the start of the piece was the end of the draft.
    rw [hstart, Flexibility.EnergyFits, Draft.sum_extend_of_le (Int.le_refl _), ← hd.total]
    exact hd.admitted
  · -- No key lies inside the piece, so this is its end.
    have hend : k = p.stop := by
      rcases hkey with rfl | hkey | hkey
      · omega
      · have := hd.keys k hkey
        omega
      · have := hkeys k hkey hinside
        omega
    rw [hend, Flexibility.EnergyFits, ← hd.total_extend w goals (by omega) hlt]
    exact h.admitsEnergy_choosePower goals hd hentry hlt hle

/-- A piece keeps a draft sound. -/
theorem sound_extend (h : Plannable w f task r) (goals : List (Option Int))
    (hd : Draft.Sound f task.runningTime r p.start d) (hentry : w.entry task ≤ p.start)
    (hlt : p.start < p.stop) (hle : p.stop ≤ task.runningTime)
    (hkeys : ∀ k, k ∈ f.powerCorridor.keys ∨ k ∈ f.energyCorridor.keys → p.start < k →
      p.stop ≤ k) :
    Draft.Sound f task.runningTime r p.stop (d.extend f w goals p) := by
  have h0 : 0 ≤ p.start := Int.le_trans (w.entry_nonneg task) hentry
  have hchanges : ∀ k ∈ f.powerCorridor.keys, p.start < k → p.stop ≤ k :=
    fun k hk => hkeys k (.inl hk)
  have hbounds : ∀ k ∈ f.energyCorridor.keys, p.start < k → p.stop ≤ k :=
    fun k hk => hkeys k (.inr hk)
  exact
    { starts := Draft.mem_keys_extend.2 (.inr hd.starts)
      keys := by
        intro k hk
        rcases Draft.mem_keys_extend.1 hk with rfl | hk
        · omega
        · have := hd.keys k hk
          omega
      total := hd.total_extend w goals h0 hlt
      power := h.powerFits_extend goals hd h0 hlt hchanges
      energy := h.energyFits_extend goals hd hentry hlt hle hbounds
      admitted := h.admitsEnergy_choosePower goals hd hentry hlt hle
      moderate := h.moderate_choosePower goals hd h0 hlt
      quiet := by
        by_cases hr : r ≤ p.start
        · exact .inr (by omega)
        · left
          show d.energy + choosePower f w goals d p * p.length = 0
          rw [hd.quiet.resolve_right hr,
            h.choosePower_eq_zero_of_quiet hentry hlt (by omega)]
          ring }

/-- Every way keeps a draft sound up to the offset to which it leads. -/
theorem sound_foldl (h : Plannable w f task r) (goals : List (Option Int)) {last : Int}
    (hlast : last ≤ task.runningTime) :
    ∀ {here : Int} {way : List Piece} {d : Draft}, w.entry task ≤ here →
      Consecutive f.powerCorridor f.energyCorridor last here way →
      Draft.Sound f task.runningTime r here d →
      Draft.Sound f task.runningTime r (arrival here way) (way.foldl (Draft.extend f w goals) d)
  | _, [], _, _, _, hd => hd
  | _, p :: rest, d, hentry, hway, hd => by
      obtain ⟨rfl, hlt, hle, hkeys, hrest⟩ := hway
      have hnext := h.sound_extend goals hd hentry hlt (by omega) hkeys
      show Draft.Sound f task.runningTime r (arrival p.stop rest)
        (rest.foldl (Draft.extend f w goals) (d.extend f w goals p))
      exact h.sound_foldl goals hlast (by omega) hrest hnext

end Plannable

/-! ## The finished profile -/

namespace Draft

/-- The profile of a draft before it is brought into its shortest form. -/
def rested (d : Draft) (here runningTime : Int) : PowerProfile :=
  (if here < runningTime then d.planned.insert here 0 else d.planned).insert runningTime 0

variable {here runningTime : Int}

theorem mem_keys_rested {k : Int} :
    k ∈ (d.rested here runningTime).keys ↔
      k = runningTime ∨ (k = here ∧ here < runningTime) ∨ k ∈ d.planned.keys := by
  rw [rested, OrderedMap.mem_keys_iff_get?, OrderedMap.mem_keys_iff_get?]
  by_cases hlt : here < runningTime
  · rw [if_pos hlt]
    simp only [OrderedMap.get?_insert]
    split <;> [skip; split] <;> simp_all
  · rw [if_neg hlt]
    simp only [OrderedMap.get?_insert]
    split <;> simp_all

theorem lastEntry?_rested (hkeys : ∀ k ∈ d.planned.keys, k ≤ runningTime) :
    OrderedMap.lastEntry? (d.rested here runningTime) = some (runningTime, 0) := by
  rw [OrderedMap.lastEntry?_eq_some_iff]
  refine ⟨OrderedMap.get?_insert_self _ _ _, fun k hk => ?_⟩
  rcases mem_keys_rested.1 hk with rfl | ⟨rfl, hlt⟩ | hk
  · omega
  · omega
  · have := hkeys k hk
    omega

/-- A finished profile is the draft up to the offset reached and at rest from there
    on. -/
theorem powerAt_rested (hkeys : ∀ k ∈ d.planned.keys, k ≤ here) (hle : here ≤ runningTime)
    (t : Int) :
    powerAt (d.rested here runningTime) t = if t < here then powerAt d.planned t else 0 := by
  have hnone : ∀ j, here < j → d.planned.get? j = none := by
    intro j hj
    rw [OrderedMap.get?_eq_none_iff]
    intro hmem
    have := hkeys j hmem
    omega
  rw [rested, powerAt]
  -- The last entry that was written decides, from the end of the task backwards.
  by_cases hrun : runningTime ≤ t
  · rw [OrderedMap.floorValue?_insert_of_le _ hrun, if_neg (by omega)]
    · rfl
    · intro j hj _
      split
      · rw [OrderedMap.get?_insert_of_ne (by omega), hnone j (by omega)]
      · exact hnone j (by omega)
  · rw [OrderedMap.floorValue?_insert_of_lt _ (by omega)]
    split
    · by_cases ht : t < here
      · rw [OrderedMap.floorValue?_insert_of_lt _ ht, if_pos ht, powerAt]
      · rw [OrderedMap.floorValue?_insert_of_le _ (by omega) fun j hj _ => hnone j hj, if_neg ht]
        rfl
    · rw [if_pos (by omega), powerAt]

/-- A finished profile without a piece rests. -/
theorem powerAt_rested_nil (energy slotEnergy : Int) (ledger : List Int) (t : Int) :
    powerAt (Draft.rested ⟨[], energy, slotEnergy, ledger⟩ here runningTime) t = 0 := by
  refine powerAt_eq_zero (fun k v hget => ?_) t
  rw [rested, planned_nil] at hget
  split_ifs at hget <;>
  · simp only [OrderedMap.get?_insert, OrderedMap.get?_singleton] at hget
    split_ifs at hget <;> simp_all

end Draft

namespace Plannable

variable {here : Int}

/-- Whatever has been delivered stays admissible. -/
theorem admitsEnergy_of_le (h : Plannable w f task r)
    (hd : Draft.Sound f task.runningTime r here d) (hentry : w.entry task ≤ here) {k : Int}
    (hk : here ≤ k) : f.AdmitsEnergy k d.energy := by
  have h0 := w.entry_nonneg task
  rcases hd.quiet with hnothing | hr
  · rw [hnothing]
    exact h.idles k (by omega) (.inr (by omega))
  · exact h.widens _ _ _ (by omega) hr hk hd.admitted

/-- Resting after the last piece keeps the energy corridor at all keys. -/
theorem energyFits_rested (h : Plannable w f task r)
    (hd : Draft.Sound f task.runningTime r here d) (hentry : w.entry task ≤ here)
    (hle : here ≤ task.runningTime) {k : Int} (hk : 0 < k)
    (hkey : k ∈ (d.rested here task.runningTime).keys ∨ k ∈ f.energyCorridor.keys) :
    f.EnergyFits (d.rested here task.runningTime) k := by
  have h0 : 0 ≤ here := Int.le_trans (w.entry_nonneg task) hentry
  have hpower := Draft.powerAt_rested (hd.keys_le h0) hle
  have hbefore : ∀ k, k ≤ here →
      ∑ t ∈ Finset.Ico 0 k, powerAt (d.rested here task.runningTime) t
        = ∑ t ∈ Finset.Ico 0 k, powerAt d.planned t := by
    intro k hk
    apply Finset.sum_congr rfl
    intro t ht
    rw [hpower, if_pos (Int.lt_of_lt_of_le (Finset.mem_Ico.1 ht).2 hk)]
  rw [Draft.mem_keys_rested] at hkey
  by_cases hlt : k < here
  · -- The key was one of the draft's already.
    rw [Flexibility.EnergyFits, hbefore k hlt.le]
    apply hd.energy k hk hlt.le
    rcases hkey with (rfl | ⟨rfl, -⟩ | hkey) | hkey
    · omega
    · omega
    · exact .inl hkey
    · exact .inr hkey
  · -- Nothing is delivered from `here` on.
    have hrest : ∑ t ∈ Finset.Ico here k, powerAt (d.rested here task.runningTime) t = 0 := by
      apply Finset.sum_eq_zero
      intro t ht
      rw [hpower, if_neg (Int.not_lt.2 (Finset.mem_Ico.1 ht).1)]
    rw [Flexibility.EnergyFits, ← sum_Ico_add_sum_Ico _ h0 (by omega),
      hbefore here (Int.le_refl _), ← hd.total, hrest, Int.add_zero]
    exact h.admitsEnergy_of_le hd hentry (by omega)

theorem fits_rested (h : Plannable w f task r)
    (hd : Draft.Sound f task.runningTime r here d) (hentry : w.entry task ≤ here)
    (hle : here ≤ task.runningTime) :
    f.Fits task.startingTime (d.rested here task.runningTime) := by
  have h0 : 0 ≤ here := Int.le_trans (w.entry_nonneg task) hentry
  have hpower := Draft.powerAt_rested (hd.keys_le h0) hle
  have hkeys : ∀ k ∈ d.planned.keys, k ≤ task.runningTime := by
    intro k hk
    have := hd.keys k hk
    have := h.lasts
    omega
  exact
    { starts := Draft.mem_keys_rested.2 (.inr (.inr hd.starts))
      stops := ⟨task.runningTime, Draft.lastEntry?_rested hkeys, h.inTime, h.ends⟩
      power := by
        intro t ht _
        by_cases hlt : t < here
        · rw [Flexibility.PowerFits, hpower, if_pos hlt]
          exact hd.power t ht hlt
        · exact h.powerFits_of_rest ht (by rw [hpower, if_neg hlt])
      energy := fun k hk hkey => h.energyFits_rested hd hentry hle hk hkey }

/-- A task of which nothing is left to plan rests. -/
theorem fits_rested_of_nil (h : Plannable w f task r) (ledger : List Int)
    (hle : task.runningTime ≤ here) :
    f.Fits task.startingTime (Draft.rested ⟨[], 0, 0, ledger⟩ here task.runningTime) := by
  have hkey : ∀ k, k ∈ (Draft.rested ⟨[], 0, 0, ledger⟩ here task.runningTime).keys →
      k = task.runningTime ∨ k = 0 := by
    intro k hk
    rcases Draft.mem_keys_rested.1 hk with hk | ⟨-, hlt⟩ | hk
    · exact .inl hk
    · omega
    · exact .inr (by rwa [Draft.planned_nil, mem_keys_singleton] at hk)
  have hpower : ∀ t, powerAt (Draft.rested ⟨[], 0, 0, ledger⟩ here task.runningTime) t = 0 :=
    Draft.powerAt_rested_nil 0 0 ledger
  have hlast : OrderedMap.lastEntry? (Draft.rested ⟨[], 0, 0, ledger⟩ here task.runningTime)
      = some (task.runningTime, 0) := by
    apply Draft.lastEntry?_rested
    intro k hk
    have := h.lasts
    rw [Draft.planned_nil, mem_keys_singleton] at hk
    omega
  exact
    { starts := by
        rw [Draft.mem_keys_rested, Draft.planned_nil, mem_keys_singleton]
        exact .inr (.inr rfl)
      stops := ⟨task.runningTime, hlast, h.inTime, h.ends⟩
      power := fun t ht _ => h.powerFits_of_rest ht (hpower t)
      energy := by
        intro k hk hmem
        rw [Flexibility.EnergyFits, Finset.sum_eq_zero fun t _ => hpower t]
        apply h.idles k hk.le
        rcases hmem with hmem | hmem
        · -- The only key after 0 is the end of the task.
          have := hkey k hmem
          exact .inr (by omega)
        · exact .inl hmem }

/-- A planned profile is the shortest form of one that fits and starts no earlier than
    the task. -/
theorem planTask_power (h : Plannable w f task r) (goals : List (Option Int))
    (ledger : List Int) :
    ∃ q : PowerProfile, f.Fits task.startingTime q ∧ (∀ k ∈ q.keys, 0 ≤ k) ∧
      (planTask w goals f task ledger).1.power = compress q task.runningTime := by
  have hlast := PlanningWindow.walk_last_le w task
  have hentry := w.entry_nonneg task
  have hshort := h.short
  have hlasts := h.lasts
  have hway := PlanningWindow.consecutive_piecesOf h.grid h.reach h.short f.powerCorridor
    f.energyCorridor ledger.length
  have hsound := h.sound_foldl goals hlast (Int.le_refl _) hway (h.sound_start ledger)
  have hresume := resumesAt_eq_arrival (by omega) hentry hway
  have harrival := hway.le_arrival
  refine ⟨_, ?_, ?_, rfl⟩
  · show f.Fits task.startingTime (Draft.rested _ _ _)
    rw [PlanningWindow.walk_start h.reach, hresume]
    generalize w.piecesOf f.powerCorridor f.energyCorridor ledger.length task = way at *
    cases way with
    | nil =>
        -- Without a piece the planned part is over before it begins, or the window is.
        by_cases hle : task.runningTime ≤ w.entry task
        · exact h.fits_rested_of_nil ledger hle
        · exact h.fits_rested hsound (Int.le_refl _) (Int.not_le.1 hle).le
    | cons p rest =>
        have hend := hway.arrival_le (by simp)
        exact h.fits_rested hsound harrival (by omega)
  · -- All keys are offsets of the draft, where it ends or the end of the task.
    intro k hk
    have hkey : k ∈ (Draft.rested _ _ _).keys := hk
    rw [PlanningWindow.walk_start h.reach, hresume, Draft.mem_keys_rested] at hkey
    rcases hkey with rfl | ⟨rfl, -⟩ | hkey
    · exact hlasts
    · omega
    · exact (hsound.keys k hkey).1

/-- Every planned profile fits, whatever the goals and whatever is booked already. -/
theorem planTask_fits (h : Plannable w f task r) (goals : List (Option Int))
    (ledger : List Int) :
    f.Fits task.startingTime (planTask w goals f task ledger).1.power := by
  obtain ⟨q, hfits, -, hpower⟩ := h.planTask_power goals ledger
  rw [hpower]
  exact hfits.compress

theorem planTask_keys_nonneg (h : Plannable w f task r) (goals : List (Option Int))
    (ledger : List Int) : ∀ k ∈ (planTask w goals f task ledger).1.power.keys, 0 ≤ k := by
  obtain ⟨q, -, hkeys, hpower⟩ := h.planTask_power goals ledger
  rw [hpower]
  exact fun k hk => hkeys k (mem_keys_of_compress hk)

end Plannable
end SiteDispatch
