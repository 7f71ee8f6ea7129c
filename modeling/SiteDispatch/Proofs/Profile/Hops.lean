/-
  SiteDispatch.Proofs.Profile.Hops

  Energy counted from key to key.

  A loop that adds up energy stands at an instant and hops to the next key of the step
  function, or to the end if that comes first. The power does not change before the next key,
  so each hop counts all seconds that it passes, wherever the loop begins among the keys. A
  loop is given by one round of it and run with `StateTransition.eval`, which is defined only
  if the loop ends.
-/

import Mathlib.Computability.StateTransition
import SiteDispatch.Device.State
import SiteDispatch.Proofs.Profile.Integral

namespace SiteDispatch
namespace PowerProfile

open StateTransition

variable {p : PowerProfile} {stop t : Int}

/-- One round of adding up energy up to `stop`. The state is the instant reached and the Ws
    counted so far. -/
def hop (p : PowerProfile) (stop : Int) : Int × Int → Option (Int × Int)
  | (t, energy) =>
    if t < stop then
      let next := (p.higherKey? t).elim stop (min · stop)
      some (next, energy + powerAt p t * (next - t))
    else none

/-- There is nothing left to count at the end. -/
theorem hop_of_le (h : stop ≤ t) (energy : Int) : hop p stop (t, energy) = none :=
  if_neg (Int.not_lt.2 h)

/-- Before the end a hop goes forward and counts the seconds that it passes. -/
theorem exists_hop (p : PowerProfile) (h : t < stop) :
    ∃ next, t < next ∧ next ≤ stop ∧ ∀ energy, hop p stop (t, energy)
      = some (next, energy + ∑ s ∈ Finset.Ico t next, powerAt p s) := by
  have hcounts : ∀ next, t < next → (∀ j ∈ p.keys, t < j → next ≤ j) →
      powerAt p t * (next - t) = ∑ s ∈ Finset.Ico t next, powerAt p s := by
    intro next htn hleast
    refine (sum_Ico_of_no_key htn.le fun j htj hjn => ?_).symm
    rw [OrderedMap.get?_eq_none_iff]
    exact fun hj => absurd (hleast j hj htj) (Int.not_le.2 hjn)
  cases hkey : p.higherKey? t with
  | none =>
      have hlast := OrderedMap.higherKey?_eq_none_iff.1 hkey
      refine ⟨stop, h, Int.le_refl stop, fun energy => ?_⟩
      rw [← hcounts stop h fun j hj htj => absurd (hlast j hj) (Int.not_le.2 htj)]
      simp only [hop, if_pos h, hkey, Option.elim_none]
  | some k =>
      obtain ⟨-, htk, hleast⟩ := OrderedMap.higherKey?_eq_some_iff.1 hkey
      have hforward : t < min k stop := lt_min htk h
      refine ⟨min k stop, hforward, min_le_right k stop, fun energy => ?_⟩
      rw [← hcounts _ hforward fun j hj htj => (min_le_left k stop).trans (hleast j hj htj)]
      simp only [hop, if_pos h, hkey, Option.elim_some]

/-- From any instant on the loop ends, with the energy up to the end counted. -/
theorem mem_eval_hop (p : PowerProfile) (stop t energy : Int) :
    (max t stop, energy + ∑ s ∈ Finset.Ico t stop, powerAt p s)
      ∈ eval (hop p stop) (t, energy) := by
  by_cases h : t < stop
  · obtain ⟨next, htn, hns, hround⟩ := exists_hop p h
    have ih := mem_eval_hop p stop next (energy + ∑ s ∈ Finset.Ico t next, powerAt p s)
    rw [Int.add_assoc, sum_Ico_add_sum_Ico _ htn.le hns, Int.max_eq_right hns] at ih
    rw [reaches_eval (.single (hround energy)), Int.max_eq_right h.le]
    exact ih
  · rw [Finset.Ico_eq_empty h, Finset.sum_empty, Int.add_zero, Int.max_eq_left (by omega)]
    exact mem_eval.2 ⟨.refl, hop_of_le (by omega) energy⟩
termination_by (stop - t).toNat
decreasing_by omega

/-! ## Second by second -/

/-- The energy of a profile is the sum of the power in force over all seconds, and the energy
    that a device is expected to store grows by that sum, in Wh without the fraction. The loop
    that hops from key to key ends for every step function, whatever instant it begins at, and
    ends with the sum over the seconds up to the end. -/
theorem energy_is_sum_over_seconds :
    (∀ (p : PowerProfile) (stop : Int),
      integral p stop = ∑ t ∈ Finset.Ico 0 stop, (p.floorValue? t).getD 0) ∧
    (∀ (s : DeviceState) (now time stored : Int),
      s.expectedEnergy now time stored
        = stored + (∑ t ∈ Finset.Ico now time, s.powerAt t).tdiv 3600) ∧
    ∀ (p : OrderedMap Int Int) (start stop : Int),
      (max start stop, ∑ t ∈ Finset.Ico start stop, powerAt p t)
        ∈ eval (hop p stop) (start, 0) := by
  refine ⟨integral_eq_sum, fun s now time stored => ?_, fun p start stop => ?_⟩
  · rw [DeviceState.expectedEnergy, energyBetween_eq_sum]
    rfl
  · have hends := mem_eval_hop p stop start 0
    rwa [Int.zero_add] at hends

end PowerProfile
end SiteDispatch
