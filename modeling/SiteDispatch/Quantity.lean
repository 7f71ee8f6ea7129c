/-
  SiteDispatch.Quantity

  The 32-bit range in which devices keep powers, energies and offsets, and the
  three ways a wider number gets into it: saturation, dropping the high bits,
  and truncation of a measured value.

  Quantities themselves are plain integers everywhere in the library. They are cut
  off where a value crosses into the narrow range, and where narrow values are
  added or subtracted in it and the result may leave it: at the end of a
  correction, between two offsets of an energy corridor and in the net exchange of
  a slot. Profiles are walked from offset 0 on, so that what lies between two of
  their offsets stays in the range. Everything else is computed in 64 bits.

  In these, too, a sum is cut off if it may be large: the least time between two
  jobs is configured, and any value is one. All other sums and products are exact
  here. In 64 bits they are as long as instants, slot lengths and time buffers stay
  within 10^13 seconds, as every instant with a calendar date does, power is added
  up over less than 2^32 seconds, and energies stay within 10^15 Wh. Anything
  larger is out of scope.
-/

namespace SiteDispatch
namespace Quantity

/-- Smallest value of the narrow range. As a lower bound it means "no bound". -/
def least : Int := -2147483648

/-- Largest value of the narrow range. As an upper bound it means "no bound". -/
def greatest : Int := 2147483647

/-- The value of the narrow range nearest to `x`. -/
def saturate (x : Int) : Int := max least (min x greatest)

/-- The low 32 bits of `x`, read as a signed number. -/
def low32 (x : Int) : Int := Int.bmod x 4294967296

/-- The low 64 bits of `x`, read as a signed number. -/
def low64 (x : Int) : Int := Int.bmod x 18446744073709551616

/-- `x` without its fraction, saturated to 32 bits; 0 when `x` is not a number. -/
def truncate32 (x : Float) : Int :=
  if x < 0.0 then max least (-(-x).toUInt32.toNat) else min x.toUInt32.toNat greatest

/-- `x` without its fraction, saturated to 64 bits; 0 when `x` is not a number. -/
def truncate64 (x : Float) : Int :=
  if x < 0.0 then max (-9223372036854775808) (-(-x).toUInt64.toNat)
  else min x.toUInt64.toNat 9223372036854775807

/-- Ws to Wh, without the fraction. -/
def wattHours (ws : Int) : Int := ws.tdiv 3600

/-- Ws to the nearest Wh, halves away from zero. -/
def nearestWattHours (ws : Int) : Int :=
  (ws + if 0 ≤ ws then 1800 else -1800).tdiv 3600

theorem nearestWattHours_zero : nearestWattHours 0 = 0 := rfl

/-- Values of the narrow range lose no bits. -/
theorem low32_eq_self {x : Int} (h₁ : least ≤ x) (h₂ : x ≤ greatest) : low32 x = x := by
  simp only [low32, least, greatest] at *
  rw [Int.bmod_def]; split <;> omega

theorem low32_le_greatest (x : Int) : low32 x ≤ greatest := by
  simp only [low32, greatest, Int.bmod_def]
  split <;> omega

/-- A value that is no larger than what is left of it has lost no bits. -/
theorem low32_eq_of_le {x : Int} (h0 : 0 ≤ x) (h : x ≤ low32 x) : low32 x = x := by
  simp only [low32, Int.bmod_def] at *
  split at h <;> omega

end Quantity

/-- A number that fits a signed 32-bit field. -/
def Fits32 (i : Int) : Prop := Quantity.least ≤ i ∧ i ≤ Quantity.greatest

/-- A number that fits a signed 64-bit field. -/
def Fits64 (i : Int) : Prop := -9223372036854775808 ≤ i ∧ i ≤ 9223372036854775807

instance (i : Int) : Decidable (Fits32 i) := inferInstanceAs (Decidable (_ ∧ _))

instance (i : Int) : Decidable (Fits64 i) := inferInstanceAs (Decidable (_ ∧ _))

theorem Fits64.low64_eq_self {x : Int} (h : Fits64 x) : Quantity.low64 x = x := by
  simp only [Fits64, Quantity.low64, Int.bmod_def] at *
  split <;> omega

end SiteDispatch
