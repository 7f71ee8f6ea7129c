/-
  SiteDispatch.Proofs.Profile.Integral

  The energy of a step function, second by second.

  `energyBetween` adds one product per stretch of constant power. Here it is shown
  to be the sum of the power in force over all seconds of the interval, which is
  the form every statement about energy in the library is made in.
-/

import Mathlib.Algebra.BigOperators.Intervals
import Mathlib.Data.Int.ConditionallyCompleteOrder
import Mathlib.Data.Int.Interval
import Mathlib.Tactic.Ring
import SiteDispatch.Proofs.OrderedMap.StepFunction
import SiteDispatch.Profile

namespace SiteDispatch
namespace PowerProfile

variable {p q : PowerProfile}

/-! ## Sums over consecutive seconds -/

theorem sum_Ico_add_sum_Ico (f : Int → Int) {a b c : Int} (hab : a ≤ b) (hbc : b ≤ c) :
    ∑ t ∈ Finset.Ico a b, f t + ∑ t ∈ Finset.Ico b c, f t = ∑ t ∈ Finset.Ico a c, f t := by
  rw [← Finset.Ico_union_Ico_eq_Ico hab hbc,
    Finset.sum_union (Finset.Ico_disjoint_Ico_consecutive a b c)]

/-- A sum over seconds counted from `d` is one over offsets. -/
theorem sum_Ico_shift (f : Int → Int) (d a b : Int) :
    ∑ t ∈ Finset.Ico (d + a) (d + b), f t = ∑ t ∈ Finset.Ico a b, f (d + t) := by
  rw [Int.add_comm d a, Int.add_comm d b, ← Finset.sum_Ico_add']
  exact Finset.sum_congr rfl fun t _ => by rw [Int.add_comm]

theorem sum_Ico_const {f : Int → Int} {a b v : Int} (hab : a ≤ b)
    (h : ∀ t, a ≤ t → t < b → f t = v) : ∑ t ∈ Finset.Ico a b, f t = v * (b - a) := by
  rw [Finset.sum_congr rfl fun t ht =>
    h t (Finset.mem_Ico.1 ht).1 (Finset.mem_Ico.1 ht).2]
  rw [Finset.sum_const, Int.card_Ico, nsmul_eq_mul, Int.toNat_of_nonneg (by omega)]
  ring

/-! ## The power in force -/

theorem powerAt_of_get? {k v : Int} (h : p.get? k = some v) : powerAt p k = v := by
  rw [powerAt, OrderedMap.floorValue?_of_get? h]
  rfl

theorem powerAt_eq_of_no_key {s t : Int} (hst : s ≤ t)
    (h : ∀ j, s < j → j ≤ t → p.get? j = none) : powerAt p t = powerAt p s := by
  rw [powerAt, powerAt, OrderedMap.floorValue?_eq_of_no_key hst h]

theorem powerAt_congr {t : Int} (h : ∀ j, j ≤ t → q.get? j = p.get? j) :
    powerAt q t = powerAt p t := by
  rw [powerAt, powerAt, OrderedMap.floorValue?_congr h]

theorem powerAt_shift {d k t : Int} (hk : k ∈ p.keys) (hkt : k ≤ t)
    (h : ∀ j, k ≤ j → j ≤ t → q.get? (d + j) = p.get? j) : powerAt q (d + t) = powerAt p t := by
  rw [powerAt, powerAt, OrderedMap.floorValue?_shift hk hkt h]

/-- Until the next key the value stored under a key is in force. -/
theorem powerAt_of_keys {k t v : Int} (hget : p.get? k = some v) (hkt : k ≤ t)
    (hkeys : ∀ j ∈ p.keys, k < j → t < j) : powerAt p t = v := by
  rw [powerAt_eq_of_no_key hkt, powerAt_of_get? hget]
  intro j hkj hjt
  rw [OrderedMap.get?_eq_none_iff]
  intro hj
  have := hkeys j hj hkj
  omega

/-- The entry in force is at or after any key that has been passed. -/
theorem exists_entry {k t : Int} (hk : k ∈ p.keys) (hkt : k ≤ t) :
    ∃ j, k ≤ j ∧ j ≤ t ∧ p.get? j = some (powerAt p t) ∧ ∀ i, j < i → i ≤ t → p.get? i = none := by
  obtain ⟨v, hv⟩ := OrderedMap.exists_floorValue?_of_key hk hkt
  obtain ⟨j, hget, hjt, hnone⟩ := OrderedMap.floorValue?_eq_some_iff.1 hv
  have hvalue : powerAt p t = v := by
    rw [powerAt, hv]
    rfl
  refine ⟨j, ?_, hjt, by rw [hvalue, hget], hnone⟩
  by_contra hlt
  have hgone := hnone k (by omega) hkt
  rw [OrderedMap.get?_eq_none_iff] at hgone
  exact hgone hk

/-- A profile that stores nothing but 0 W rests. -/
theorem powerAt_eq_zero (h : ∀ k v, p.get? k = some v → v = 0) (t : Int) :
    powerAt p t = 0 := by
  rw [powerAt]
  cases hfloor : p.floorValue? t with
  | none => rfl
  | some v =>
      obtain ⟨k, -, hget⟩ := OrderedMap.exists_key_of_floorValue? hfloor
      exact h k v hget

/-- Before its first entry a profile rests. -/
theorem powerAt_eq_zero_of_lt {t : Int} (h : ∀ k ∈ p.keys, t < k) :
    powerAt p t = 0 := by
  rw [powerAt, OrderedMap.floorValue?_eq_none_iff.2]
  · rfl
  · intro j hj
    rw [OrderedMap.get?_eq_none_iff]
    intro hmem
    have := h j hmem
    omega

/-- Without a key in between, the power at the start is delivered throughout. -/
theorem sum_Ico_of_no_key {a b : Int} (hab : a ≤ b)
    (h : ∀ j, a < j → j < b → p.get? j = none) :
    ∑ t ∈ Finset.Ico a b, powerAt p t = powerAt p a * (b - a) :=
  sum_Ico_const hab fun t hat htb =>
    powerAt_eq_of_no_key hat fun j haj hjt => h j haj (by omega)

/-! ## Breakpoints that miss no key -/

section Walk

variable {t next : Int} {later : List Int} {isKey : Int → Prop}

theorem next_le_of_isKey (hnext : ∀ k ∈ later, next < k)
    (hkeys : ∀ j, isKey j → t < j → j ∈ next :: later) {j : Int} (hj : isKey j) (htj : t < j) :
    next ≤ j := by
  rcases List.mem_cons.1 (hkeys j hj htj) with rfl | hmem
  · exact Int.le_refl j
  · exact (hnext j hmem).le

theorem mem_later_of_isKey (htn : t < next)
    (hkeys : ∀ j, isKey j → t < j → j ∈ next :: later) {j : Int} (hj : isKey j) (hnj : next < j) :
    j ∈ later := by
  have htj : t < j := Int.lt_trans htn hnj
  rcases List.mem_cons.1 (hkeys j hj htj) with rfl | hmem
  · exact absurd hnj (Int.lt_irrefl j)
  · exact hmem

end Walk

/-! ## The integral -/

/-- Along breakpoints that miss no key, `energyAlong` counts every second. -/
theorem energyAlong_eq_sum (p : PowerProfile) (stop : Int) :
    ∀ (later : List Int) (start : Int), (start :: (later ++ [stop])).Pairwise (· < ·) →
      (∀ j ∈ p.keys, start < j → j < stop → j ∈ later) →
      energyAlong p start (later ++ [stop]) = ∑ t ∈ Finset.Ico start stop, powerAt p t
  | [], start, hasc, hkeys => by
      have hlt : start < stop := by simpa using hasc
      rw [sum_Ico_of_no_key hlt.le fun j hj hjs => ?_]
      · simp [energyAlong]
      · rw [OrderedMap.get?_eq_none_iff]
        exact fun hmem => List.not_mem_nil (hkeys j hmem hj hjs)
  | next :: later, start, hasc, hkeys => by
      obtain ⟨hstart, hrest⟩ := List.pairwise_cons.1 hasc
      have hnext := (List.pairwise_cons.1 hrest).1
      have hlt : start < next := hstart next (by simp)
      have hle : next < stop := hnext stop (by simp)
      have hbelow : ∀ j, j ∈ p.keys ∧ j < stop → start < j → j ∈ next :: later :=
        fun j hj hsj => hkeys j hj.1 hsj hj.2
      -- No key lies before the next breakpoint, so one product counts all seconds up to it.
      have hnone : ∀ j, start < j → j < next → p.get? j = none := by
        intro j hj hjn
        rw [OrderedMap.get?_eq_none_iff]
        intro hmem
        have := next_le_of_isKey (fun k hk => hnext k (by simp [hk])) hbelow
          ⟨hmem, Int.lt_trans hjn hle⟩ hj
        omega
      have ih := energyAlong_eq_sum p stop later next hrest fun j hmem hj hjs =>
        mem_later_of_isKey hlt hbelow ⟨hmem, hjs⟩ hj
      rw [List.cons_append, energyAlong, ih, ← sum_Ico_of_no_key hlt.le hnone,
        sum_Ico_add_sum_Ico _ hlt.le hle.le]

theorem energyBetween_eq_sum (p : PowerProfile) (start stop : Int) :
    energyBetween p start stop = ∑ t ∈ Finset.Ico start stop, powerAt p t := by
  unfold energyBetween
  split
  · rename_i hlt
    apply energyAlong_eq_sum
    · -- The keys strictly between both ends are ascending, and so they are with the ends.
      have hkeys := p.pairwise_keys
      rw [List.pairwise_cons, List.pairwise_append]
      refine ⟨?_, hkeys.filter _, List.pairwise_singleton _ _, ?_⟩
      · intro j hj
        rcases List.mem_append.1 hj with hj | hj
        · have := (List.mem_filter.1 hj).2
          simp only [Bool.and_eq_true, decide_eq_true_eq] at this
          exact this.1
        · rw [List.mem_singleton.1 hj]
          exact hlt
      · intro j hj k hk
        have := (List.mem_filter.1 hj).2
        simp only [Bool.and_eq_true, decide_eq_true_eq] at this
        rw [List.mem_singleton.1 hk]
        exact this.2
    · intro j hmem hj hjs
      simp [hmem, hj, hjs]
  · rename_i hge
    rw [Finset.Ico_eq_empty (by omega), Finset.sum_empty]

theorem integral_eq_sum (p : PowerProfile) (stop : Int) :
    integral p stop = ∑ t ∈ Finset.Ico 0 stop, powerAt p t :=
  energyBetween_eq_sum p 0 stop

/-! ## Energy bounds between breakpoints -/

/-- Energy grows linearly between two instants without a key in between, so a bound
    that holds it at both holds it in between. -/
theorem contains_sum_between {i : Interval} {a t b : Int} (h0 : 0 ≤ a) (hat : a ≤ t)
    (htb : t ≤ b) (hnone : ∀ j, a < j → j < b → p.get? j = none)
    (ha : i.contains (∑ s ∈ Finset.Ico 0 a, powerAt p s))
    (hb : i.contains (∑ s ∈ Finset.Ico 0 b, powerAt p s)) :
    i.contains (∑ s ∈ Finset.Ico 0 t, powerAt p s) := by
  rw [Interval.contains_iff] at *
  rw [← sum_Ico_add_sum_Ico _ h0 (hat.trans htb), sum_Ico_of_no_key (hat.trans htb) hnone] at hb
  rw [← sum_Ico_add_sum_Ico _ h0 hat,
    sum_Ico_of_no_key hat fun j haj hjt => hnone j haj (by omega)]
  -- The direction in which energy moves decides which end bounds it from which side.
  rcases le_total 0 (powerAt p a) with hv | hv
  · have hgrow := Int.mul_le_mul_of_nonneg_left (show t - a ≤ b - a by omega) hv
    have hpos := Int.mul_nonneg hv (show 0 ≤ t - a by omega)
    omega
  · have hfall := Int.mul_le_mul_of_nonpos_left hv (show t - a ≤ b - a by omega)
    have hneg := Int.mul_nonpos_of_nonpos_of_nonneg hv (show 0 ≤ t - a by omega)
    omega

/-- A bound that holds the energy at `a` and at all later keys of a profile that ends
    with 0 W holds it from `a` on. -/
theorem contains_sum_of_keys {i : Interval} {last : Int} (hlast : p.lastEntry? = some (last, 0))
    {t : Int} : ∀ {a : Int}, 0 ≤ a → a ≤ t →
      i.contains (∑ s ∈ Finset.Ico 0 a, powerAt p s) →
      (∀ k ∈ p.keys, a < k → i.contains (∑ s ∈ Finset.Ico 0 k, powerAt p s)) →
      i.contains (∑ s ∈ Finset.Ico 0 t, powerAt p s) := by
  intro a h0 hat ha hkeys
  cases hnext : p.higherKey? a with
  | none =>
      -- Nothing is delivered after the last key.
      obtain ⟨hget, hmax⟩ := OrderedMap.lastEntry?_eq_some_iff.1 hlast
      have hle := OrderedMap.higherKey?_eq_none_iff.1 hnext
      have hrest : ∑ s ∈ Finset.Ico a t, powerAt p s = 0 := by
        refine Finset.sum_eq_zero fun s hs => ?_
        have hlasts : last ≤ s :=
          (hle last (OrderedMap.mem_keys_iff_get?.2 ⟨0, hget⟩)).trans (Finset.mem_Ico.1 hs).1
        rw [powerAt_eq_of_no_key hlasts, powerAt_of_get? hget]
        exact fun j hj _ => OrderedMap.get?_eq_none_iff.2 fun hmem => hmax j hmem hj
      rw [← sum_Ico_add_sum_Ico _ h0 hat, hrest, Int.add_zero]
      exact ha
  | some next =>
      obtain ⟨hmem, hlt, hleast⟩ := OrderedMap.higherKey?_eq_some_iff.1 hnext
      have hnone : ∀ j, a < j → j < next → p.get? j = none := by
        intro j haj hjn
        rw [OrderedMap.get?_eq_none_iff]
        intro hj
        have := hleast j hj haj
        omega
      -- Either the instant lies before the next key, or the argument goes on from there.
      by_cases htn : t ≤ next
      · exact contains_sum_between h0 hat htn hnone ha (hkeys next hmem hlt)
      · exact contains_sum_of_keys hlast (a := next) (by omega) (by omega) (hkeys next hmem hlt)
          fun k hk hnk => hkeys k hk (by omega)
termination_by a => (t - a).toNat
decreasing_by omega

end PowerProfile

/-! ## Breakpoints -/

theorem mem_insertInstant {t u : Int} {l : List Int} : u ∈ insertInstant t l ↔ u = t ∨ u ∈ l := by
  induction l with
  | nil => simp [insertInstant]
  | cons v rest ih =>
      unfold insertInstant
      split
      · simp
      · split
        · simp only [List.mem_cons, ih]
          tauto
        · have : t = v := by omega
          simp [this]

theorem pairwise_insertInstant (t : Int) {l : List Int} (h : l.Pairwise (· < ·)) :
    (insertInstant t l).Pairwise (· < ·) := by
  induction l with
  | nil => exact List.pairwise_singleton _ _
  | cons v rest ih =>
      obtain ⟨hv, hrest⟩ := List.pairwise_cons.1 h
      unfold insertInstant
      split
      · rename_i htv
        refine List.pairwise_cons.2 ⟨fun u hu => ?_, h⟩
        rcases List.mem_cons.1 hu with rfl | hu
        · exact htv
        · exact Int.lt_trans htv (hv u hu)
      · split
        · rename_i hvt
          refine List.pairwise_cons.2 ⟨fun u hu => ?_, ih hrest⟩
          rcases mem_insertInstant.1 hu with rfl | hu
          · exact hvt
          · exact hv u hu
        · exact h

theorem mem_breakpoints {k : Int} {keys : List Int} : k ∈ breakpoints keys ↔ k ∈ keys ∧ 0 < k := by
  have hfold : ∀ l : List Int, k ∈ l.foldr insertInstant [] ↔ k ∈ l := by
    intro l
    induction l with
    | nil => simp
    | cons v rest ih => rw [List.foldr_cons, mem_insertInstant, ih, List.mem_cons]
  rw [breakpoints, hfold, List.mem_filter, decide_eq_true_eq]

/-- Offset 0 and the breakpoints after it, ascending. -/
theorem pairwise_zero_breakpoints (keys : List Int) : (0 :: breakpoints keys).Pairwise (· < ·) := by
  have hfold : ∀ l : List Int, (l.foldr insertInstant []).Pairwise (· < ·) := by
    intro l
    induction l with
    | nil => exact .nil
    | cons v rest ih => exact pairwise_insertInstant v ih
  exact List.pairwise_cons.2 ⟨fun k hk => (mem_breakpoints.1 hk).2, hfold _⟩

end SiteDispatch
