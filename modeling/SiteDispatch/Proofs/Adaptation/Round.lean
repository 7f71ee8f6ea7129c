/-
  SiteDispatch.Proofs.Adaptation.Round

  What one measurement does to the adaptable tasks.

  A task is corrected on its own: its correction is computed from its entry as it was before the
  round, and no other entry has a part in it. So a round is described entry by entry.
-/

import SiteDispatch.Adaptation.Round
import SiteDispatch.Proofs.Device.Offer
import SiteDispatch.Proofs.OrderedMap.Lookup

namespace SiteDispatch

/-! ## One task -/

namespace AdaptableEntry

/-- The entry with another profile. -/
def withPower (entry : AdaptableEntry) (power : PowerProfile) : AdaptableEntry :=
  { entry with task := { entry.task with power := power } }

variable {entry : AdaptableEntry} {key : AdaptableKey} {share : Float} {now horizon : Int}
  {c : Confirmation}

/-- A correction sends the part of a valid profile from the present offset to its boundary, and
    keeps what it takes to undo it. -/
theorem correction_eq_some (h : entry.correction key share now horizon = .ok (some c)) :
    ∃ offset boundary power,
      offset = Quantity.low32 (now - entry.task.startingTime) ∧
      boundary = entry.boundary offset horizon ∧ offset ≤ boundary ∧
      entry.flexibility.accepts entry.task.startingTime (entry.corrected power offset boundary)
        = true ∧
      c = ⟨key, (entry.corrected power offset boundary).filter
          fun k _ => offset ≤ k && k ≤ boundary,
        entry.corrected power offset boundary, entry.task.power⟩ := by
  obtain ⟨power, -, h⟩ := bind_eq_ok_iff.1 h
  dsimp only at h
  split_ifs at h with haccepts
  · obtain ⟨update, hwindow, heq⟩ := bind_eq_ok_iff.1 h
    rw [window] at hwindow
    split_ifs at hwindow with hreversed
    cases hwindow
    cases heq
    exact ⟨_, _, power, rfl, rfl, Int.not_lt.1 hreversed, haccepts, rfl⟩
  · cases h

/-- A correction names its task and the profile that it replaces. -/
theorem backup_of_correction (h : entry.correction key share now horizon = .ok (some c)) :
    c.key = key ∧ c.backup = entry.task.power := by
  obtain ⟨_, _, _, -, -, -, -, rfl⟩ := correction_eq_some h
  exact ⟨rfl, rfl⟩

end AdaptableEntry

/-! ## All running tasks -/

namespace AdaptableIndex

/-- A task is adapted once at most in a round. -/
theorem nodup_running (index : AdaptableIndex) (now : Int) :
    (AdaptableIndex.running index now).Nodup := by
  have hasc : (AdaptableIndex.running index now).Pairwise (· < ·) := by
    rw [running, List.pairwise_map]
    exact index.ascending.filter _
  refine hasc.imp ?_
  rintro key _ hlt rfl
  exact KeyOrder.irrefl _ hlt

end AdaptableIndex

namespace Adapter

variable {a a' : Adapter} {key : AdaptableKey} {share : Float} {now horizon : Int}
  {round : AdaptationRound}

theorem get?_setPower (a : Adapter) (key : AdaptableKey) (power : PowerProfile)
    (other : AdaptableKey) :
    (a.setPower key power).index.get? other
      = if other = key then (a.index.get? other).map (·.withPower power)
        else a.index.get? other := by
  rw [setPower, OrderedMap.get?_modify]
  rfl

/-- What `sent` says about the entry of a key before and after a round: it was left alone, or one
    correction was sent for it and it has the corrected profile now. -/
inductive Revises (share : Float) (now horizon : Int) (sent : List Confirmation)
    (key : AdaptableKey) : Option AdaptableEntry → Option AdaptableEntry → Prop
  | untouched {known : Option AdaptableEntry} (hnone : ∀ c ∈ sent, c.key ≠ key) :
      Revises share now horizon sent key known known
  | corrected {entry : AdaptableEntry} {c : Confirmation}
      (honly : sent.filter (·.key = key) = [c])
      (hcorrection : entry.correction key share now horizon = .ok (some c)) :
      Revises share now horizon sent key (some entry) (some (entry.withPower c.adapted))

section Revises

variable {sent : List Confirmation} {before after : Option AdaptableEntry} {c : Confirmation}

/-- Without a correction the entry stays. -/
theorem Revises.eq_of_none (h : Revises share now horizon sent key before after)
    (hnone : ∀ c ∈ sent, c.key ≠ key) : after = before := by
  cases h with
  | untouched => rfl
  | @corrected entry c honly _ =>
      have hmem : c ∈ sent.filter (·.key = key) := honly ▸ List.mem_singleton_self c
      obtain ⟨hsent, hkey⟩ := List.mem_filter.1 hmem
      exact absurd (of_decide_eq_true hkey) (hnone c hsent)

/-- What was sent for an entry was computed from it, and it has the corrected profile now. -/
theorem Revises.of_mem (h : Revises share now horizon sent key before after) (hsent : c ∈ sent)
    (hkey : c.key = key) :
    ∃ entry, before = some entry ∧ after = some (entry.withPower c.adapted) ∧
      entry.correction key share now horizon = .ok (some c) := by
  cases h with
  | untouched hnone => exact absurd hkey (hnone c hsent)
  | @corrected entry c' honly hcorrection =>
      have hmem : c ∈ sent.filter (·.key = key) :=
        List.mem_filter.2 ⟨hsent, decide_eq_true hkey⟩
      rw [honly, List.mem_singleton] at hmem
      subst hmem
      exact ⟨entry, rfl, rfl, hcorrection⟩

/-- A correction of another task makes no difference. -/
theorem Revises.cons_of_ne (h : Revises share now horizon sent key before after)
    (hkey : c.key ≠ key) : Revises share now horizon (c :: sent) key before after := by
  cases h with
  | untouched hnone => exact .untouched (List.forall_mem_cons.2 ⟨hkey, hnone⟩)
  | corrected honly hcorrection =>
      refine .corrected ?_ hcorrection
      rw [List.filter_cons_of_neg (by simpa using hkey), honly]

end Revises

/-- Tasks are corrected independently of each other. -/
theorem adaptAll_revises {keys : List AdaptableKey} (hnodup : keys.Nodup)
    (h : adaptAll share now horizon keys a = .ok (round, a')) (key : AdaptableKey) :
    (key ∉ keys → ∀ c ∈ round.confirmations, c.key ≠ key) ∧
    Revises share now horizon round.confirmations key (a.index.get? key) (a'.index.get? key) := by
  induction keys generalizing a a' round with
  | nil =>
      cases h
      exact ⟨fun _ c hc => (List.not_mem_nil hc).elim,
        .untouched fun c hc => (List.not_mem_nil hc).elim⟩
  | cons first rest ih =>
      obtain ⟨hfirst, hrest⟩ := List.nodup_cons.1 hnodup
      rw [adaptAll] at h
      split at h
      · -- There is no entry of this key any more.
        obtain ⟨houtside, hrevises⟩ := ih hrest h
        exact ⟨fun hkey => houtside (List.not_mem_of_not_mem_cons hkey), hrevises⟩
      · rename_i entry hentry
        obtain ⟨correction?, hcorrection, h⟩ := bind_eq_ok_iff.1 h
        rcases correction? with _ | c
        · -- The task is left to the next optimisation.
          obtain ⟨⟨others, a₁⟩, hothers, heq⟩ := bind_eq_ok_iff.1 h
          cases heq
          obtain ⟨houtside, hrevises⟩ := ih hrest hothers
          exact ⟨fun hkey => houtside (List.not_mem_of_not_mem_cons hkey), hrevises⟩
        · obtain ⟨⟨others, a₁⟩, hothers, heq⟩ := bind_eq_ok_iff.1 h
          cases heq
          obtain ⟨houtside, hrevises⟩ := ih hrest hothers
          rw [get?_setPower] at hrevises
          obtain ⟨hcorrected, -⟩ := AdaptableEntry.backup_of_correction hcorrection
          refine ⟨fun hkey => ?_, ?_⟩
          · rw [List.mem_cons, not_or] at hkey
            exact List.forall_mem_cons.2
              ⟨hcorrected ▸ Ne.symm hkey.1, houtside hkey.2⟩
          · by_cases hkey : key = first
            · -- Its own correction: the later ones leave it alone.
              subst hkey
              have hnone := houtside hfirst
              rw [if_pos rfl, hentry] at hrevises
              rw [hentry, hrevises.eq_of_none hnone]
              refine .corrected ?_ hcorrection
              rw [List.filter_cons_of_pos (by simpa using hcorrected),
                List.filter_eq_nil_iff.2 (by simpa using hnone)]
            · rw [if_neg hkey] at hrevises
              exact hrevises.cons_of_ne (hcorrected ▸ Ne.symm hkey)

/-- What a measurement did to the entry of a key. -/
theorem adapt_revises {data : MonitoringData}
    (h : a.adapt data now horizon = .ok (round, a')) (key : AdaptableKey) :
    Revises (data.difference / Float.ofInt (AdaptableIndex.running a.index now).length) now horizon
      round.confirmations key (a.index.get? key) (a'.index.get? key) :=
  (adaptAll_revises (AdaptableIndex.nodup_running a.index now) h key).2

end Adapter

/-! ## An hour with a shortfall -/

/-- An hour at 500 W, of which every power up to 2 kW is admissible. -/
def AdaptableEntry.hourAtHalfKilowatt : AdaptableEntry where
  task := ⟨4, 4, true, 0, 3600, .ofList [(0, 500), (3600, 0)]⟩
  flexibility :=
    { id := 4
      taskId := 4
      adaptable := true
      stoppingTime := ⟨3600, 3600⟩
      runningTime := ⟨0, 3600⟩
      powerCorridor := OrderedMap.singleton 0 ⟨-2000, 2000⟩
      energyCorridor := OrderedMap.singleton 0 ⟨-1000000000, 1000000000⟩ }

/-- The hour at 500 W is the only task that is known. -/
def Adapter.oneHour : Adapter :=
  ⟨OrderedMap.singleton ⟨⟨1⟩, 4⟩ .hourAtHalfKilowatt, .empty 900 300⟩

/-- The site falls short of its schedule by 100 W. -/
def MonitoringData.shortfall : MonitoringData := ⟨700.0, -300.0, 500.0, 1000.0⟩

end SiteDispatch
