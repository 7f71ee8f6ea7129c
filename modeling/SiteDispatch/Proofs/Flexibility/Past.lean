/-
  SiteDispatch.Proofs.Flexibility.Past

  What the past of a profile decides about its future.

  Two profiles that are the same from some instant on need not both be valid: the gate walks each
  of them from its first second. Once both have rested until that instant they deliver the same
  energy by every later one, and all that is left of the past are the energy bounds at its
  breakpoints, which have to admit that nothing was delivered.
-/

import SiteDispatch.Proofs.Flexibility.Validity

namespace SiteDispatch

/-! ## The same from some instant on -/

namespace PowerProfile

/-- From `a` on two step functions have the same power and the same entries. -/
structure SameFrom (a : Int) (p q : PowerProfile) : Prop where
  entries : ∀ j, a ≤ j → q.get? j = p.get? j
  present : powerAt q a = powerAt p a

namespace SameFrom

variable {a k t : Int} {p q : PowerProfile}

theorem symm (h : SameFrom a p q) : SameFrom a q p :=
  ⟨fun j hj => (h.entries j hj).symm, h.present.symm⟩

/-- The power at `a` stays in force until the next entry, which is one of both. -/
theorem powerAt (h : SameFrom a p q) (ht : a ≤ t) :
    PowerProfile.powerAt q t = PowerProfile.powerAt p t := by
  by_cases hkey : ∃ j ∈ p.keys, a ≤ j ∧ j ≤ t
  · obtain ⟨j, hj, haj, hjt⟩ := hkey
    rw [PowerProfile.powerAt, PowerProfile.powerAt,
      OrderedMap.floorValue?_congr_from hj hjt fun i hi _ => h.entries i (haj.trans hi)]
  · have hnone : ∀ j, a < j → j ≤ t → p.get? j = none := fun j haj hjt =>
      OrderedMap.get?_eq_none_iff.2 fun hj => hkey ⟨j, hj, haj.le, hjt⟩
    rw [powerAt_eq_of_no_key ht hnone,
      powerAt_eq_of_no_key ht fun j haj hjt => (h.entries j haj.le).trans (hnone j haj hjt)]
    exact h.present

theorem later (h : SameFrom a p q) (ht : a ≤ t) : SameFrom t p q :=
  ⟨fun j hj => h.entries j (ht.trans hj), h.powerAt ht⟩

/-- From an entry on that is one of both, nothing earlier counts. -/
theorem of_entries (hk : k ∈ p.keys) (hka : k ≤ a) (h : ∀ j, k ≤ j → q.get? j = p.get? j) :
    SameFrom a p q where
  entries j hj := h j (hka.trans hj)
  present := by
    rw [PowerProfile.powerAt, PowerProfile.powerAt,
      OrderedMap.floorValue?_congr_from hk hka fun j hj _ => h j hj]

theorem mem_keys (h : SameFrom a p q) (hk : a ≤ k) : k ∈ q.keys ↔ k ∈ p.keys := by
  rw [OrderedMap.mem_keys_iff_get?, OrderedMap.mem_keys_iff_get?, h.entries k hk]

theorem lastEntry? (h : SameFrom a p q) (hk : k ∈ p.keys) (hak : a ≤ k) :
    q.lastEntry? = p.lastEntry? := by
  cases hp : p.lastEntry? with
  | none =>
      rw [OrderedMap.keys, List.getLast?_eq_none_iff.1 hp] at hk
      cases hk
  | some e =>
      obtain ⟨last, v⟩ := e
      obtain ⟨hget, hmax⟩ := OrderedMap.lastEntry?_eq_some_iff.1 hp
      have hlast : a ≤ last := hak.trans (Int.not_lt.1 (hmax k hk))
      refine OrderedMap.lastEntry?_eq_some_iff.2 ⟨by rw [h.entries last hlast, hget], ?_⟩
      intro j hj hlt
      exact hmax j ((h.mem_keys (hlast.trans hlt.le)).1 hj) hlt

theorem energyBetween (h : SameFrom a p q) (stop : Int) :
    energyBetween q a stop = energyBetween p a stop := by
  rw [energyBetween_eq_sum, energyBetween_eq_sum]
  exact Finset.sum_congr rfl fun t ht => h.powerAt (Finset.mem_Ico.1 ht).1

/-- A new entry of both changes nothing before it, nor after an entry that follows it, and is the
    same from its instant on if everything else is. -/
theorem insertNew (h : SameFrom a p q) (v : Int)
    (hk : a < k ∨ (∀ j, k ≤ j → q.get? j = p.get? j) ∨
      ((∃ j ∈ p.keys, k < j ∧ j ≤ a) ∧ ∃ j ∈ q.keys, k < j ∧ j ≤ a)) :
    SameFrom a (p.insertNew k v) (q.insertNew k v) := by
  have hentries : ∀ j, q.get? j = p.get? j →
      (q.insertNew k v).get? j = (p.insertNew k v).get? j := by
    intro j hj
    rw [OrderedMap.get?_insertNew, OrderedMap.get?_insertNew, hj]
  have hafter : ∀ {r : PowerProfile}, (∃ j ∈ r.keys, k < j ∧ j ≤ a) →
      PowerProfile.powerAt (r.insertNew k v) a = PowerProfile.powerAt r a := by
    rintro r ⟨j, hj, hkj, hja⟩
    rw [PowerProfile.powerAt, PowerProfile.powerAt, OrderedMap.floorValue?_congr_from hj hja]
    intro i hi _
    rw [OrderedMap.get?_insertNew, if_neg (by omega)]
  have hbefore : ∀ {r : PowerProfile}, a < k →
      PowerProfile.powerAt (r.insertNew k v) a = PowerProfile.powerAt r a := fun hak =>
    powerAt_congr fun j hj => by rw [OrderedMap.get?_insertNew, if_neg (by omega)]
  refine ⟨fun j hj => hentries j (h.entries j hj), ?_⟩
  rcases hk with hak | hsame | ⟨hp, hq⟩
  · rw [hbefore hak, hbefore hak, h.present]
  · rcases lt_or_ge a k with hak | hka
    · rw [hbefore hak, hbefore hak, h.present]
    · have hkey : k ∈ (p.insertNew k v).keys := OrderedMap.mem_keys_insertNew.2 (.inl rfl)
      exact (of_entries hkey hka fun j hj => hentries j (hsame j hj)).present
  · rw [hafter hp, hafter hq, h.present]

end SameFrom

end PowerProfile

/-! ## A past at rest -/

namespace Flexibility

open PowerProfile

variable {f : Flexibility} {p q : PowerProfile} {a startingTime : Int}

theorem sum_eq_zero_of_rests {k : Int} (hrests : ∀ t, 0 ≤ t → t < a → powerAt p t = 0)
    (hk : k ≤ a) : ∑ t ∈ Finset.Ico 0 k, powerAt p t = 0 := by
  refine Finset.sum_eq_zero fun t ht => ?_
  obtain ⟨h0, htk⟩ := Finset.mem_Ico.1 ht
  exact hrests t h0 (by omega)

/-- A profile has rested until `a`, and wherever the energy is looked at before, the bound admits
    that. -/
structure RestsUntil (f : Flexibility) (a : Int) (p : PowerProfile) : Prop where
  rests : ∀ t, 0 ≤ t → t < a → powerAt p t = 0
  admitted : ∀ k, 0 < k → k < a → k ∈ p.keys ∨ k ∈ f.energyCorridor.keys →
    ∃ bound, f.energyConstraint? k = some bound ∧ bound.contains 0

/-- Only entries before `a` have a part in it. -/
theorem RestsUntil.congr (h : f.RestsUntil a p) (hsame : ∀ j, j < a → q.get? j = p.get? j) :
    f.RestsUntil a q where
  rests t h0 ht := by
    rw [powerAt_congr fun j hj => hsame j (by omega)]
    exact h.rests t h0 ht
  admitted k h0 hk hkey := by
    refine h.admitted k h0 hk (hkey.imp_left fun hmem => ?_)
    rw [OrderedMap.mem_keys_iff_get?] at hmem ⊢
    rw [← hsame k hk]
    exact hmem

/-- What fits and rests at first shows that the bounds admit it. -/
theorem Fits.restsUntil (h : f.Fits startingTime p)
    (hrests : ∀ t, 0 ≤ t → t < a → powerAt p t = 0) : f.RestsUntil a p where
  rests := hrests
  admitted k h0 hk hkey := by
    obtain ⟨bound, hbound, hin⟩ := h.energy k h0 hkey
    rw [sum_eq_zero_of_rests hrests hk.le] at hin
    exact ⟨bound, hbound, hin⟩

/-- Of two profiles that have rested until `a` and are the same from there on, both fit if one
    does. -/
theorem Fits.of_sameFrom {k : Int} (h : f.Fits startingTime p) (hsame : SameFrom a p q)
    (hpast : f.RestsUntil a p) (hpast' : f.RestsUntil a q) (hzero : 0 ∈ q.keys)
    (hk : k ∈ p.keys) (hak : a ≤ k) : f.Fits startingTime q := by
  have hlast : q.lastEntry? = p.lastEntry? := hsame.lastEntry? hk hak
  have hhorizon : f.horizon q = f.horizon p := by
    rw [horizon, horizon, q.lastKey?_eq_map, p.lastKey?_eq_map, hlast]
  have hpower : ∀ t, 0 ≤ t → powerAt q t = powerAt p t := by
    intro t h0
    rcases lt_or_ge t a with hbefore | hfrom
    · rw [hpast.rests t h0 hbefore, hpast'.rests t h0 hbefore]
    · exact hsame.powerAt hfrom
  refine ⟨hzero, by rw [hlast]; exact h.stops, fun t h0 ht => ?_, fun j h0 hj => ?_⟩
  · rw [PowerFits, hpower t h0]
    exact h.power t h0 (hhorizon ▸ ht)
  · rcases lt_or_ge j a with hbefore | hfrom
    · -- The breakpoints of the past may be others, but nothing has been delivered there.
      rw [EnergyFits, sum_eq_zero_of_rests hpast'.rests hbefore.le]
      exact hpast'.admitted j h0 hbefore hj
    · have hsum : ∑ t ∈ Finset.Ico 0 j, powerAt q t = ∑ t ∈ Finset.Ico 0 j, powerAt p t :=
        Finset.sum_congr rfl fun t ht => hpower t (Finset.mem_Ico.1 ht).1
      rw [EnergyFits, hsum]
      exact h.energy j h0 (hj.imp_left (hsame.mem_keys hfrom).1)

end Flexibility
end SiteDispatch
