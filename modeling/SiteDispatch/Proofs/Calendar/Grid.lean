/-
  SiteDispatch.Proofs.Calendar.Grid

  Slots lie on one grid for as long as clocks are set by whole slots only.

  The start of a slot is found by the minutes and seconds that the clocks show. As slots
  divide the hour, these tell how far an instant is from the last one at which the clocks
  showed a whole number of slots since local 1970-01-01. So the hours and days between two
  instants do not matter, only that their offsets from UTC leave the same remainder. Where
  they do not, and where dates end, another grid begins in the middle of a slot.
-/

import Mathlib.Data.Int.ModEq
import Mathlib.Data.Set.Defs
import Mathlib.Tactic.Linarith
import SiteDispatch.Calendar.Slot
import SiteDispatch.Proofs.Calendar.Forward

namespace SiteDispatch
namespace Calendar

/-- Offset from UTC by which slots are aligned at an instant. Without a date they are aligned
    to UTC. -/
def alignment (z : Zone) (t : Int) : Int := if hasDate t then z.offsetAt t else 0

/-- Whether clocks with the given offset show a whole number of slots. -/
def OnGrid (length offset t : Int) : Prop := length ∣ t + offset

variable {z : Zone} {length offset t u : Int}

/-! ## One grid -/

theorem OnGrid.dvd_sub (ht : OnGrid length offset t) (hu : OnGrid length offset u) :
    length ∣ t - u := by
  have := Int.dvd_sub ht hu
  rwa [Int.add_sub_add_right] at this

theorem OnGrid.add (ht : OnGrid length offset t) : OnGrid length offset (t + length) := by
  have := Int.dvd_add ht (Int.dvd_refl length)
  rwa [Int.add_right_comm] at this

/-- No two instants of a grid are less than a slot apart, so one that comes before the end of
    the slot at `u` comes no later than `u`. -/
theorem OnGrid.le_of_lt_add (ht : OnGrid length offset t) (hu : OnGrid length offset u)
    (h : t < u + length) : t ≤ u := by
  by_contra hlt
  have hle := Int.le_of_dvd (by omega) (ht.dvd_sub hu)
  omega

/-- An instant of one grid is one of another exactly if their offsets are congruent. -/
theorem OnGrid.iff_modEq {other : Int} (ht : OnGrid length offset t) :
    OnGrid length other t ↔ other ≡ offset [ZMOD length] := by
  have hsame : OnGrid length other t ↔ t + other ≡ t + offset [ZMOD length] := by
    have hzero : t + offset ≡ 0 [ZMOD length] := Int.modEq_zero_iff_dvd.2 ht
    rw [OnGrid, ← Int.modEq_zero_iff_dvd]
    exact ⟨fun h => h.trans hzero.symm, fun h => h.trans hzero⟩
  rw [hsame]
  exact ⟨Int.ModEq.add_left_cancel' t, Int.ModEq.add_left t⟩

/-! ## The slot around an instant -/

section Slot

variable (hdvd : length ∣ 3600)

include hdvd

theorem slotStart_eq (z : Zone) (t : Int) :
    slotStart z t length = t - (t + alignment z t) % length := by
  rw [slotStart, alignment]
  split
  · rw [Int.tmod_eq_emod_of_nonneg (Int.emod_nonneg _ (by decide)), Int.emod_emod_of_dvd _ hdvd]
    rfl
  · rw [Int.add_zero]

theorem onGrid_slotStart (z : Zone) (t : Int) :
    OnGrid length (alignment z t) (slotStart z t length) := by
  refine ⟨(t + alignment z t) / length, ?_⟩
  have := Int.emod_add_mul_ediv (t + alignment z t) length
  rw [slotStart_eq hdvd]
  linarith

theorem onGrid_slotStart_alike (halike : alignment z t ≡ alignment z u [ZMOD length]) :
    OnGrid length (alignment z t) (slotStart z u length) :=
  (onGrid_slotStart hdvd z u).iff_modEq.2 halike

/-- Slot starts are the instants of the grid that is in force there. -/
theorem slotStart_eq_self_iff : slotStart z t length = t ↔ OnGrid length (alignment z t) t := by
  rw [slotStart_eq hdvd, OnGrid, Int.dvd_iff_emod_eq_zero]
  omega

variable (hlength : 1 ≤ length)

include hlength

theorem slotStart_le (z : Zone) (t : Int) : slotStart z t length ≤ t := by
  have := Int.emod_nonneg (t + alignment z t) (show length ≠ 0 by omega)
  rw [slotStart_eq hdvd]
  omega

theorem lt_slotStart_add (z : Zone) (t : Int) : t < slotStart z t length + length := by
  have := Int.emod_lt_of_pos (t + alignment z t) (show 0 < length by omega)
  rw [slotStart_eq hdvd]
  omega

theorem ceilToSlot_eq_self_iff : ceilToSlot z t length = t ↔ slotStart z t length = t := by
  have hlt := lt_slotStart_add hdvd hlength z t
  simp only [ceilToSlot]
  split <;> omega

/-- The end of the slot around an instant, unless it starts one, is an instant of its grid. -/
theorem ceilToSlot_spec (z : Zone) (t : Int) :
    t ≤ ceilToSlot z t length ∧ ceilToSlot z t length < t + length ∧
      OnGrid length (alignment z t) (ceilToSlot z t length) := by
  have hle := slotStart_le hdvd hlength z t
  have hlt := lt_slotStart_add hdvd hlength z t
  simp only [ceilToSlot]
  split
  · rename_i hstart
    exact ⟨Int.le_refl t, by omega, (slotStart_eq_self_iff hdvd).1 hstart⟩
  · exact ⟨by omega, by omega, (onGrid_slotStart hdvd z t).add⟩

/-- An instant of a grid starts a slot exactly if that is the grid in force at the instant. -/
theorem fixed_iff_modEq (ht : OnGrid length offset t) :
    slotStart z t length = t ∧ ceilToSlot z t length = t ↔
      alignment z t ≡ offset [ZMOD length] := by
  rw [ceilToSlot_eq_self_iff hdvd hlength, and_self, slotStart_eq_self_iff hdvd, ht.iff_modEq]

/-! ## Slots around two instants -/

variable (halike : alignment z t ≡ alignment z u [ZMOD length])

include halike

theorem onGrid_ceilToSlot_alike : OnGrid length (alignment z t) (ceilToSlot z u length) :=
  (ceilToSlot_spec hdvd hlength z u).2.2.iff_modEq.2 halike

/-- The earlier instant is in the same slot or in an earlier one. -/
theorem slotStart_mono (htu : t ≤ u) : slotStart z t length ≤ slotStart z u length := by
  have hle := slotStart_le hdvd hlength z t
  have hlt := lt_slotStart_add hdvd hlength z u
  exact (onGrid_slotStart hdvd z t).le_of_lt_add (onGrid_slotStart_alike hdvd halike)
    (by omega)

/-- No instant of the grid comes between an instant and the next start of a slot. -/
theorem ceilToSlot_le_of_onGrid (hu : OnGrid length (alignment z u) u) (htu : t ≤ u) :
    ceilToSlot z t length ≤ u := by
  obtain ⟨-, hlt, hceil⟩ := ceilToSlot_spec hdvd hlength z t
  exact hceil.le_of_lt_add (hu.iff_modEq.2 halike) (by omega)

theorem ceilToSlot_mono (htu : t ≤ u) : ceilToSlot z t length ≤ ceilToSlot z u length := by
  obtain ⟨-, hlt, hceil⟩ := ceilToSlot_spec hdvd hlength z t
  obtain ⟨hle, -, -⟩ := ceilToSlot_spec hdvd hlength z u
  exact hceil.le_of_lt_add (onGrid_ceilToSlot_alike hdvd hlength halike) (by omega)

end Slot

/-! ## Slots in a range -/

/-- Over instants at which offsets from UTC leave the same remainder, slots lie on one grid.
    Both ends of the slot around an instant are on it. An end is itself a slot start exactly if
    the same grid is in force there, which holds in the range but need not hold around it. -/
theorem slots_form_one_grid (z : Zone) (hlength : 1 ≤ length) (hdvd : length ∣ 3600)
    {range : Set Int}
    (hrange : ∀ t ∈ range, ∀ u ∈ range, z.offsetAt t ≡ z.offsetAt u [ZMOD length])
    {t : Int} (ht : t ∈ range) (hdate : hasDate t) :
    (slotStart z t length ≤ t ∧ t < slotStart z t length + length) ∧
    (∀ u ∈ range, hasDate u → t ≤ u →
      slotStart z t length ≤ slotStart z u length ∧
        ceilToSlot z t length ≤ ceilToSlot z u length) ∧
    (∀ s, s = slotStart z t length ∨ s = ceilToSlot z t length →
      (s ∈ range → hasDate s → slotStart z s length = s ∧ ceilToSlot z s length = s) ∧
      (slotStart z s length = s ∧ ceilToSlot z s length = s ↔
        alignment z s ≡ z.offsetAt t [ZMOD length])) ∧
    (t ≤ ceilToSlot z t length ∧ ∀ s ∈ range, hasDate s → slotStart z s length = s → t ≤ s →
      ceilToSlot z t length ≤ s) ∧
    ∀ u ∈ range, hasDate u →
      length ∣ slotStart z u length - slotStart z t length ∧
        length ∣ ceilToSlot z u length - slotStart z t length := by
  have hdated : ∀ u, hasDate u → alignment z u = z.offsetAt u := fun u hu => if_pos hu
  have halike : ∀ u ∈ range, hasDate u → alignment z t ≡ alignment z u [ZMOD length] := by
    intro u hu hudate
    rw [hdated t hdate, hdated u hudate]
    exact hrange t ht u hu
  have hstart := onGrid_slotStart hdvd z t
  obtain ⟨hle, -, hceil⟩ := ceilToSlot_spec hdvd hlength z t
  refine ⟨⟨slotStart_le hdvd hlength z t, lt_slotStart_add hdvd hlength z t⟩, ?_, ?_,
    ⟨hle, ?_⟩, ?_⟩
  · intro u hu hudate htu
    have hsame := halike u hu hudate
    exact ⟨slotStart_mono hdvd hlength hsame htu, ceilToSlot_mono hdvd hlength hsame htu⟩
  · intro s hs
    have hgrid : OnGrid length (alignment z t) s := by
      rcases hs with rfl | rfl
      · exact hstart
      · exact hceil
    rw [hdated t hdate] at hgrid
    have hfixed := fixed_iff_modEq (z := z) hdvd hlength hgrid
    refine ⟨fun hsrange hsdate => hfixed.2 ?_, hfixed⟩
    rw [hdated s hsdate]
    exact hrange s hsrange t ht
  · intro s hs hsdate hfixed hts
    exact ceilToSlot_le_of_onGrid hdvd hlength (halike s hs hsdate)
      ((slotStart_eq_self_iff hdvd).1 hfixed) hts
  · intro u hu hudate
    have hsame := halike u hu hudate
    exact ⟨(onGrid_slotStart_alike hdvd hsame).dvd_sub hstart,
      (onGrid_ceilToSlot_alike hdvd hlength hsame).dvd_sub hstart⟩

open Zone

/-- Instants from 1986 on, when the clocks of Kathmandu were set for the last time. -/
def sinceLastSet : Set Int := {t | 504901800 ≤ t}

/-- Since then they show one offset. -/
theorem offsetAt_kathmandu (h : t ∈ sinceLastSet) : kathmandu.offsetAt t = 20700 := by
  have hfirst : kathmandu.offsetAt 504901800 = 20700 := by decide +kernel
  rw [← hfirst]
  by_contra hne
  obtain ⟨k, hk, hlt, -⟩ := exists_change_of_offsetAt_ne h hne
  have hkeys : kathmandu.changes.keys = [504901800] := by decide +kernel
  rw [hkeys, List.mem_singleton] at hk
  omega

theorem modEq_kathmandu : ∀ t ∈ sinceLastSet, ∀ u ∈ sinceLastSet,
    kathmandu.offsetAt t ≡ kathmandu.offsetAt u [ZMOD 3600] := by
  intro t ht u hu
  rw [offsetAt_kathmandu ht, offsetAt_kathmandu hu]

/-- The first hour that the clocks of Kathmandu showed in 1986 was one of 45 minutes, so that
    the start of its slot is put where they showed another time. Behind the last instant with
    a date slots are aligned to UTC. -/
theorem end_of_slot_off_grid :
    (504901800 ∈ sinceLastSet ∧
      (∀ t ∈ sinceLastSet, ∀ u ∈ sinceLastSet,
        kathmandu.offsetAt t ≡ kathmandu.offsetAt u [ZMOD 3600]) ∧
      hasDate 504901800 ∧ slotStart kathmandu 504901800 3600 = 504900900 ∧
      slotStart kathmandu 504900900 3600 ≠ 504900900) ∧
    ((∀ t, kolkata.offsetAt t = 19800) ∧ hasDate lastInstant ∧
      ceilToSlot kolkata lastInstant 3600 = 8210266878600 ∧
      slotStart kolkata 8210266878600 3600 ≠ 8210266878600) :=
  ⟨⟨Int.le_refl 504901800, modEq_kathmandu, by decide, by decide +kernel, by decide +kernel⟩,
    fun _ => rfl, by decide, by decide +kernel, by decide +kernel⟩

/-- In the first hour of 1986 in Kathmandu the next slot starts as every later one does. -/
theorem slots_form_one_grid_kathmandu :
    (1 ≤ (3600 : Int) ∧ (3600 : Int) ∣ 3600 ∧
      (∀ t ∈ sinceLastSet, ∀ u ∈ sinceLastSet,
        kathmandu.offsetAt t ≡ kathmandu.offsetAt u [ZMOD 3600]) ∧
      504901800 ∈ sinceLastSet ∧ hasDate 504901800) ∧
    ceilToSlot kathmandu 504901800 3600 = 504904500 ∧
    slotStart kathmandu 504904500 3600 = 504904500 ∧
    (3600 : Int) ∣ slotStart kathmandu 1700000000 3600 - slotStart kathmandu 504901800 3600 := by
  have hceil : ceilToSlot kathmandu 504901800 3600 = 504904500 := by decide +kernel
  have hmem : 504901800 ∈ sinceLastSet := Int.le_refl 504901800
  obtain ⟨-, -, hfixed, -, hmultiple⟩ := slots_form_one_grid kathmandu
    (show (1 : Int) ≤ 3600 by decide) (by decide) modEq_kathmandu hmem (by decide)
  refine ⟨⟨by decide, by decide, modEq_kathmandu, hmem, by decide⟩, hceil, ?_, ?_⟩
  · have hnext : 504904500 ∈ sinceLastSet := show (504901800 : Int) ≤ 504904500 by decide
    exact ((hfixed 504904500 (.inr hceil.symm)).1 hnext (by decide)).1
  · have hlater : 1700000000 ∈ sinceLastSet := show (504901800 : Int) ≤ 1700000000 by decide
    exact (hmultiple 1700000000 hlater (by decide)).1

end Calendar
end SiteDispatch
