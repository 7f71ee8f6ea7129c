/-
  SiteDispatch.Proofs.Calendar.Forward

  Every local day ends after it starts.

  The two instants are found independently of each other, and the start of a day falls back on
  the day in UTC if the clocks skip midnight. That may be later than the next midnight only if
  the clocks are set twice within two days, which those of no zone of the table are.
-/

import Mathlib.Data.List.Pairwise
import SiteDispatch.Proofs.Calendar.Day

namespace SiteDispatch
namespace Zone

open Calendar

variable {z : Zone} {low high : Int}

/-- Clocks are set seldom: no two changes come within two days. -/
def ChangesSeldom (z : Zone) : Prop := z.changes.keys.IsChain fun a b => a + 172800 ≤ b

instance (z : Zone) : Decidable z.ChangesSeldom :=
  inferInstanceAs (Decidable (z.changes.keys.IsChain _))

/-- Numbers two days apart from their neighbours are two days apart from all others. -/
theorem pairwise_of_isChain {l : List Int} (h : l.IsChain fun a b => a + 172800 ≤ b) :
    l.Pairwise fun a b => a + 172800 ≤ b := by
  have htrans : Trans (fun a b : Int => a + 172800 ≤ b) (fun a b => a + 172800 ≤ b)
      (fun a b => a + 172800 ≤ b) := ⟨fun hab hbc => by omega⟩
  exact h.pairwise

theorem ChangesSeldom.apart (h : z.ChangesSeldom) {k l : Int} (hk : k ∈ z.changes.keys)
    (hl : l ∈ z.changes.keys) (hlt : k < l) : k + 172800 ≤ l := by
  -- Said of both orders, so that it holds of any two changes.
  have hsymm : Std.Symm fun a b : Int => (a < b → a + 172800 ≤ b) ∧ (b < a → b + 172800 ≤ a) :=
    ⟨fun _ _ hab => ⟨hab.2, hab.1⟩⟩
  have hpairwise : z.changes.keys.Pairwise fun a b : Int =>
      (a < b → a + 172800 ≤ b) ∧ (b < a → b + 172800 ≤ a) :=
    (pairwise_of_isChain h).imp fun hab => ⟨fun _ => hab, fun hba => by omega⟩
  exact (hpairwise.forall hk hl (Int.ne_of_lt hlt)).1 hlt

/-- Changes that are written down in order, each two days after the one before it. -/
theorem changesSeldom_ofList {name : String} {initial : Int} {changes : List (Int × Int)}
    (h : (changes.map (·.1)).IsChain fun a b => a + 172800 ≤ b) :
    ChangesSeldom ⟨name, initial, OrderedMap.ofList changes⟩ := by
  have hascending : changes.Pairwise fun a b => a.1 < b.1 :=
    (List.pairwise_map.1 (pairwise_of_isChain h)).imp fun hab => by omega
  show ((OrderedMap.ofList changes).entries.map (·.1)).IsChain _
  rwa [OrderedMap.entries_ofList hascending]

/-- A time that the clocks never show is skipped at a change. -/
theorem exists_change_of_instantOf?_eq_none {shown : Int}
    (hoffsets : ∀ o ∈ z.offsets, low ≤ o ∧ o ≤ high) (hskipped : z.instantOf? shown = none) :
    ∃ k ∈ z.changes.keys, shown - high < k ∧ k ≤ shown - low := by
  by_contra hnone
  obtain ⟨m, hm⟩ := exists_instantOf? shown hoffsets fun k hk => by
    by_contra hinside
    exact hnone ⟨k, hk, by omega, by omega⟩
  rw [hm] at hskipped
  cases hskipped

/-- Where the offset differs, clocks have been set in between. -/
theorem exists_change_of_offsetAt_ne {a b : Int} (hab : a ≤ b)
    (hne : z.offsetAt b ≠ z.offsetAt a) : ∃ k ∈ z.changes.keys, a < k ∧ k ≤ b := by
  by_contra hnone
  apply hne
  rw [offsetAt, OrderedMap.floorValue?_eq_of_no_key (m := z.changes) hab fun k hlt hle => ?_,
    ← offsetAt]
  rw [OrderedMap.get?_eq_none_iff]
  exact fun hk => hnone ⟨k, hk, hlt, hle⟩

/-- Where clocks are set seldom, and by no more than a day, every day ends after it starts. -/
theorem forward_of_seldom (hseldom : z.ChangesSeldom) (hspread : high - low ≤ 86400)
    (hoffsets : ∀ o ∈ z.offsets, low ≤ o ∧ o ≤ high) (t : Int) :
    startOfDay z t ≤ startOfNextDay z t := by
  have hbounds := fun t => hoffsets _ (z.offsetAt_mem_offsets t)
  have hnow := hbounds t
  have hfirst := hbounds (startOfDay z t)
  have hnext := hbounds (startOfNextDay z t)
  rcases z.startOfDay_cases t with hstarts | ⟨hstarts, hskipped⟩
  · have hends := z.startOfNextDay_cases t
    simp only [dayNumber, localTime, daySeconds] at *
    omega
  · rcases z.startOfNextDay_cases t with ⟨hdate, hlast, hends⟩ | hends
    · by_contra hback
      have hbehind : startOfDay z t ≤ t := by
        simp only [daySeconds] at hstarts
        omega
      -- The midnight that is skipped falls to a change of the clocks.
      have hnever : z.instantOf? (dayNumber z t * daySeconds + 0) = none := by
        have hshown := hskipped hdate
        rwa [timeOfDay?, if_pos (by omega)] at hshown
      obtain ⟨k, hk, hafter, hbefore⟩ := exists_change_of_instantOf?_eq_none hoffsets hnever
      -- They are set once more if the next midnight is shown before the instant itself.
      have hdiffers : z.offsetAt t ≠ z.offsetAt (startOfNextDay z t) := by
        simp only [dayNumber, localTime, daySeconds] at *
        omega
      obtain ⟨l, hl, hlater, hpast⟩ := exists_change_of_offsetAt_ne (by omega) hdiffers
      have hkl : k < l := by
        simp only [dayNumber, localTime, daySeconds] at *
        omega
      have hapart := hseldom.apart hk hl hkl
      simp only [dayNumber, localTime, daySeconds] at *
      omega
    · simp only [daySeconds] at hends
      omega

/-! ## Clocks as they are set -/

/-- Clocks whose offsets lie between `low` and `high` and which are set seldom. A change never
    takes them back into the day before. It comes while there are dates and not with midnight in
    UTC, and clocks that are set at all are always ahead of UTC or always behind it. -/
structure SetWithin (z : Zone) (low high : Int) : Prop where
  seldom : z.ChangesSeldom
  bounds : -43200 ≤ low ∧ high ≤ 43200 ∧ high - low ≤ 21600
  offset : ∀ o ∈ z.offsets, low ≤ o ∧ o ≤ high
  change : ∀ k ∈ z.changes.keys, (k - 1 + high) / daySeconds ≤ (k + low) / daySeconds ∧
    k % daySeconds ≠ 0 ∧ k + 172800 ≤ lastInstant ∧ (0 < low ∨ high < 0)

/-- Clocks are set so in every zone of the table. -/
theorem setWithin_of_mem : ∀ z ∈ Zone.all, ∃ low high, z.SetWithin low high := by
  intro z hz
  simp only [Zone.all, List.mem_cons, List.not_mem_nil, or_false] at hz
  rcases hz with rfl | rfl | rfl | rfl | rfl | rfl | rfl | rfl
  · exact ⟨0, 0, by decide, by decide, by decide, by decide⟩
  · exact ⟨3600, 7200, changesSeldom_ofList (by decide +kernel), by decide,
      forall_offsets (by decide) (by decide +kernel), forall_changes (by decide +kernel)⟩
  · exact ⟨-18000, -14400, changesSeldom_ofList (by decide +kernel), by decide,
      forall_offsets (by decide) (by decide +kernel), forall_changes (by decide +kernel)⟩
  · exact ⟨19800, 19800, by decide, by decide, by decide, by decide⟩
  · exact ⟨19800, 20700, changesSeldom_ofList (by decide +kernel), by decide,
      forall_offsets (by decide) (by decide +kernel), forall_changes (by decide +kernel)⟩
  · exact ⟨36000, 41400, changesSeldom_ofList (by decide +kernel), by decide,
      forall_offsets (by decide) (by decide +kernel), forall_changes (by decide +kernel)⟩
  · exact ⟨-10800, -7200, changesSeldom_ofList (by decide +kernel), by decide,
      forall_offsets (by decide) (by decide +kernel), forall_changes (by decide +kernel)⟩
  · exact ⟨-18000, -14400, changesSeldom_ofList (by decide +kernel), by decide,
      forall_offsets (by decide) (by decide +kernel), forall_changes (by decide +kernel)⟩

/-- Every day ends after it starts in every zone of the table. -/
theorem forward_of_mem : ∀ z ∈ Zone.all, ∀ t, startOfDay z t ≤ startOfNextDay z t := by
  intro z hz
  obtain ⟨low, high, h⟩ := setWithin_of_mem z hz
  have hbounds := h.bounds
  exact forward_of_seldom h.seldom (by omega) h.offset

end Zone
end SiteDispatch
