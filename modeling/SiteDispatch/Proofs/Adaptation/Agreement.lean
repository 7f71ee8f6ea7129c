/-
  SiteDispatch.Proofs.Adaptation.Agreement

  A device takes what the adapter sends.

  Adapter and device each keep a copy of a task, and the one of the device is usually shorter:
  entries that repeat the value before them are dropped from it whenever it changes. The adapter
  edits its copy and sends the part that it has changed; the device enters that part into its own.
  Entering it into the adapter's former copy would give the edited one, so both sides do the same
  to two copies of one step function. They still hold one step function afterwards, and as the
  device's copy has no breakpoint of its own, whatever is valid on one side is valid on the other.
-/

import SiteDispatch.Proofs.Adaptation.Round
import SiteDispatch.Proofs.Device.Ordinary
import SiteDispatch.Proofs.Device.Timeline

namespace SiteDispatch

open DeviceState (corrected)

/-! ## Shorter copies of a profile -/

namespace PowerProfile

/-- `q` is the step function `p` from offset 0 on, with some of its breakpoints. -/
structure Condenses (q p : PowerProfile) : Prop where
  zero : 0 ∈ q.keys
  power : ∀ t, 0 ≤ t → powerAt q t = powerAt p t
  last : q.lastKey? = p.lastKey?
  keys : ∀ k ∈ q.keys, 0 ≤ k → k ∈ p.keys

namespace Condenses

variable {p q : PowerProfile}

theorem refl (hzero : 0 ∈ p.keys) : Condenses p p :=
  ⟨hzero, fun _ _ => rfl, rfl, fun _ hk _ => hk⟩

theorem exists_last (h : Condenses q p) :
    ∃ stop, q.lastKey? = some stop ∧ p.lastKey? = some stop ∧ 0 ≤ stop := by
  cases hlast : q.lastKey? with
  | none =>
      have hzero := h.zero
      rw [List.getLast?_eq_none_iff.1 hlast] at hzero
      cases hzero
  | some stop =>
      have hmax := (OrderedMap.lastKey?_eq_some_iff.1 hlast).2 0 h.zero
      exact ⟨stop, rfl, h.last ▸ hlast, Int.not_lt.1 hmax⟩

theorem compress (h : Condenses q p) (runningTime : Int) :
    Condenses (PowerProfile.compress q runningTime) p where
  zero := zero_mem_keys_compress h.zero
  power t ht := by rw [powerAt_compress, h.power t ht]
  last := by
    obtain ⟨stop, hq, hp, -⟩ := h.exists_last
    rw [lastKey?_compress hq, hp]
  keys k hk := h.keys k (mem_keys_of_compress hk)

/-- What fits still fits in a shorter form. -/
theorem fits (h : Condenses q p) {f : Flexibility} {startingTime : Int}
    (hfits : f.Fits startingTime p) : f.Fits startingTime q := by
  refine hfits.of_agree h.zero ?_ h.power fun k hk hpos => h.keys k hk hpos.le
  obtain ⟨stop, hlast, -⟩ := hfits.stops
  have hstop := hfits.last_nonneg hlast
  rw [hlast]
  rw [Flexibility.lastEntry?_eq_iff_powerAt] at hlast ⊢
  exact ⟨h.last.trans hlast.1, (h.power stop hstop).trans hlast.2⟩

end Condenses

/-! ## The same correction of two copies -/

section Corrected

variable {task task' : Task} {update : PowerProfile} {first last : Int}

/-- The breakpoints of a correction stay, and outside it those of the task. -/
theorem mem_keys_corrected {k : Int} :
    k ∈ (corrected task update first last).2.keys ↔
      (k = last ∨ k ∈ update.keys) ∨ ((k < first ∨ last < k) ∧ k ∈ task.power.keys) := by
  have hupdate : (corrected task update first last).1.get? k ≠ none ↔
      k = last ∨ k ∈ update.keys := by
    rw [get?_corrected_update, OrderedMap.mem_keys_iff_get?]
    by_cases hk : k = last
    · simp [hk]
    · simp [hk, Option.ne_none_iff_exists']
  have htask : (if k < first ∨ last < k then task.power.get? k else none) ≠ none ↔
      (k < first ∨ last < k) ∧ k ∈ task.power.keys := by
    rw [OrderedMap.mem_keys_iff_get?, ← Option.ne_none_iff_exists']
    by_cases hk : k < first ∨ last < k
    · simp [hk]
    · simp [hk]
  rw [OrderedMap.mem_keys_iff_get?, ← Option.ne_none_iff_exists', get?_corrected, ← hupdate,
    ← htask, Ne, Option.or_eq_none_iff, not_and_or]

/-- A correction that does not go on behind the end of a profile does not move it. -/
theorem lastKey?_corrected {stop : Int} (hlast : update.lastKey? = some last)
    (hstop : task.power.lastKey? = some stop) (hle : last ≤ stop) :
    OrderedMap.lastKey? (corrected task update first last).2 = some stop := by
  obtain ⟨-, hlater⟩ := OrderedMap.lastKey?_eq_some_iff.1 hlast
  obtain ⟨hmem, hmax⟩ := OrderedMap.lastKey?_eq_some_iff.1 hstop
  refine OrderedMap.lastKey?_eq_some_iff.2 ⟨mem_keys_corrected.2 ?_, fun k hk => ?_⟩
  · -- The end of the profile lies behind the correction, or the correction puts it back.
    rcases Int.lt_or_eq_of_le hle with hlt | heq
    · exact .inr ⟨.inr hlt, hmem⟩
    · exact .inl (.inl heq.symm)
  · rcases mem_keys_corrected.1 hk with (rfl | hupdate) | ⟨-, htask⟩
    · exact Int.not_lt.2 hle
    · exact Int.not_lt.2 (Int.le_trans (Int.not_lt.1 (hlater k hupdate)) hle)
    · exact hmax k htask

/-- Inside a correction the update is in force, whatever it has replaced. -/
theorem powerAt_corrected_congr (hfirst : update.firstKey? = some first) {t : Int}
    (ht : first ≤ t) (htlast : t < last) :
    powerAt (corrected task update first last).2 t
      = powerAt (corrected task' update first last).2 t := by
  obtain ⟨hmem, -⟩ := OrderedMap.firstKey?_eq_some_iff.1 hfirst
  have hkey : first ∈ (corrected task' update first last).2.keys :=
    mem_keys_corrected.2 (.inl (.inr hmem))
  rw [powerAt, powerAt, OrderedMap.floorValue?_congr_from hkey ht]
  intro k hk hkt
  -- From the first key on, what the task had there is gone.
  simp only [get?_corrected, get?_corrected_update, if_neg (show ¬ k = last by omega),
    if_neg (show ¬ (k < first ∨ last < k) by omega)]

/-- The same correction of two copies of a step function gives two copies of one. It must not
    remove the start of the profile or go on behind its end. -/
theorem Condenses.corrected {stop : Int} (h : Condenses task'.power task.power)
    (hfirst : update.firstKey? = some first) (hlast : update.lastKey? = some last)
    (hzero : 0 ∈ (corrected task update first last).2.keys)
    (hstop : task.power.lastKey? = some stop) (hle : last ≤ stop) :
    Condenses (corrected task' update first last).2 (corrected task update first last).2 where
  zero := by
    rw [mem_keys_corrected] at hzero ⊢
    exact hzero.imp_right fun ⟨hout, _⟩ => ⟨hout, h.zero⟩
  power t ht := by
    -- Outside both are as before; inside both are the update, whatever their breakpoints were.
    rcases lt_or_ge t first with hbefore | hfrom
    · rw [powerAt_corrected_of_lt_first hlast hfirst hbefore,
        powerAt_corrected_of_lt_first hlast hfirst hbefore, h.power t ht]
    · rcases lt_or_ge t last with hinside | hbehind
      · exact powerAt_corrected_congr hfirst hfrom hinside
      · rw [powerAt_corrected_of_last_le hlast hfirst hbehind,
          powerAt_corrected_of_last_le hlast hfirst hbehind, h.power t ht]
  last := by
    rw [lastKey?_corrected hlast hstop hle,
      lastKey?_corrected hlast (h.last.trans hstop) hle]
  keys k hk hk0 := by
    rw [mem_keys_corrected] at hk ⊢
    exact hk.imp_right fun ⟨hout, hmem⟩ => ⟨hout, h.keys k hmem hk0⟩

end Corrected

end PowerProfile

/-! ## What the adapter sends -/

namespace AdaptableEntry

open PowerProfile

variable {entry : AdaptableEntry} {power offset boundary : Int}

/-- The part of a corrected profile that is sent. -/
def sentPart (entry : AdaptableEntry) (power offset boundary : Int) : PowerProfile :=
  (entry.corrected power offset boundary).filter fun k _ => offset ≤ k && k ≤ boundary

theorem get?_sentPart (entry : AdaptableEntry) (power offset boundary k : Int) :
    (entry.sentPart power offset boundary).get? k
      = if offset ≤ k ∧ k ≤ boundary then (entry.corrected power offset boundary).get? k
        else none :=
  OrderedMap.get?_filter_keys (by simp)

theorem mem_keys_sentPart {k : Int} :
    k ∈ (entry.sentPart power offset boundary).keys ↔
      (offset ≤ k ∧ k ≤ boundary) ∧ k ∈ (entry.corrected power offset boundary).keys := by
  rw [OrderedMap.mem_keys_iff_get?, OrderedMap.mem_keys_iff_get?, get?_sentPart]
  by_cases hk : offset ≤ k ∧ k ≤ boundary
  · simp [hk]
  · simp [hk]

/-- What is sent begins at the present offset. -/
theorem firstKey?_sentPart (hle : offset ≤ boundary) :
    (entry.sentPart power offset boundary).firstKey? = some offset := by
  rw [OrderedMap.firstKey?_eq_some_iff, mem_keys_sentPart]
  refine ⟨⟨⟨Int.le_refl offset, hle⟩, ?_⟩, fun k hk => Int.not_lt.2 (mem_keys_sentPart.1 hk).1.1⟩
  rw [OrderedMap.mem_keys_iff_get?, AdaptableEntry.corrected, OrderedMap.get?_insert,
    OrderedMap.get?_insert_self]
  split
  · exact ⟨_, rfl⟩
  · exact ⟨_, rfl⟩

/-- It ends at the boundary. -/
theorem lastKey?_sentPart (hle : offset ≤ boundary) :
    (entry.sentPart power offset boundary).lastKey? = some boundary := by
  rw [OrderedMap.lastKey?_eq_some_iff, mem_keys_sentPart]
  refine ⟨⟨⟨hle, Int.le_refl boundary⟩, ?_⟩,
    fun k hk => Int.not_lt.2 (mem_keys_sentPart.1 hk).1.2⟩
  rw [OrderedMap.mem_keys_iff_get?, AdaptableEntry.corrected, OrderedMap.get?_insert_self]
  exact ⟨_, rfl⟩

/-- Entered into the copy that it was made from, the part that is sent gives the corrected
    profile. -/
theorem corrected_sentPart (hle : offset ≤ boundary) :
    (DeviceState.corrected entry.task (entry.sentPart power offset boundary) offset boundary).2
      = entry.corrected power offset boundary := by
  apply OrderedMap.ext_get?
  intro k
  rw [get?_corrected, get?_corrected_update, get?_sentPart]
  by_cases hend : k = boundary
  · rw [if_pos hend, hend, AdaptableEntry.corrected, OrderedMap.get?_insert_self]
    rfl
  · rw [if_neg hend]
    by_cases hinside : offset ≤ k ∧ k ≤ boundary
    · rw [if_pos hinside, if_neg (by omega), Option.or_none]
    · -- Outside the correction the adapter leaves its copy as it was.
      have hout : k < offset ∨ boundary < k := by omega
      rw [if_neg hinside, if_pos hout, Option.none_or, AdaptableEntry.corrected,
        OrderedMap.get?_insert_of_ne hend, OrderedMap.get?_insert_of_ne (by omega), opened,
        OrderedMap.get?_filter_keys (q := k < offset ∨ boundary < k) (by simp), if_pos hout]

/-- A correction ends no later than the profile. -/
theorem boundary_le {stop : Int} (hstop : entry.task.power.lastKey? = some stop)
    (offset horizon : Int) : entry.boundary offset horizon ≤ stop := by
  rw [boundary, hstop]
  exact Int.min_le_right _ _

end AdaptableEntry

/-! ## Two copies of a task -/

/-- A device has `task` for the task that the adapter knows as `entry`: in the same flexibility,
    with the same start and the same power. -/
structure DeviceState.Mirrors (s : DeviceState) (id : Int) (entry : AdaptableEntry) (task : Task) :
    Prop where
  flexibility : s.flexibilities.get? id = some entry.flexibility
  adaptable : entry.flexibility.adaptable = true
  stored : s.tasks.get? entry.flexibility.taskId = some task
  start : task.startingTime = entry.task.startingTime
  profile : task.power.Condenses entry.task.power

section

variable {s : DeviceState} {entry : AdaptableEntry} {task : Task} {key : AdaptableKey}
  {share : Float} {now horizon : Int} {c : Confirmation}

/-- A correction is taken by a device that has the same task, and afterwards it has the same
    corrected task. -/
theorem DeviceState.Mirrors.correction (h : s.Mirrors key.flexibilityId entry task)
    (hcorrection : entry.correction key share now horizon = .ok (some c)) :
    ∃ s' task', s.adapt key.flexibilityId c.update = (.ok, s') ∧
      s'.Mirrors key.flexibilityId (entry.withPower c.adapted) task' ∧
      task'.runningTime = task.runningTime ∧ task'.power.lastKey? = task.power.lastKey? ∧
      ((∀ k ∈ task.power.keys, k ∈ entry.task.power.keys) →
        ∀ k ∈ task'.power.keys, k ∈ c.adapted.keys) := by
  obtain ⟨offset, boundary, power, -, hboundary, hle, haccepts, rfl⟩ :=
    AdaptableEntry.correction_eq_some hcorrection
  obtain ⟨stop, htask, hentry, -⟩ := h.profile.exists_last
  have hstop : boundary ≤ stop := hboundary ▸ AdaptableEntry.boundary_le hentry offset horizon
  have hfits := Flexibility.accepts_iff_fits.1 haccepts
  -- Seen from the device, the adapter has entered its update into its own copy.
  have hfirst : (entry.sentPart power offset boundary).firstKey? = some offset :=
    AdaptableEntry.firstKey?_sentPart hle
  have hlast : (entry.sentPart power offset boundary).lastKey? = some boundary :=
    AdaptableEntry.lastKey?_sentPart hle
  rw [← AdaptableEntry.corrected_sentPart hle] at hfits
  have hcondenses := h.profile.corrected hfirst hlast hfits.starts hentry hstop
  have htaken := DeviceState.adapt_of_fits h.flexibility h.adaptable h.stored hfirst hlast
    (h.start ▸ hcondenses.fits hfits)
  refine ⟨_, _, htaken, ⟨h.flexibility, h.adaptable, OrderedMap.get?_insert_self _ _ _, h.start,
    ?_⟩, rfl, ?_, fun hkeys k hk => ?_⟩
  · rw [AdaptableEntry.corrected_sentPart hle] at hcondenses
    exact hcondenses.compress task.runningTime
  · rw [htask]
    exact PowerProfile.lastKey?_compress (PowerProfile.lastKey?_corrected hlast htask hstop)
  · have hmerged := PowerProfile.mem_keys_corrected.1 (PowerProfile.mem_keys_of_compress hk)
    show k ∈ (entry.corrected power offset boundary).keys
    rw [← AdaptableEntry.corrected_sentPart hle, PowerProfile.mem_keys_corrected]
    exact hmerged.imp_right fun ⟨hout, hmem⟩ => ⟨hout, hkeys k hmem⟩

end

namespace Adapter

variable {a a' b : Adapter} {s t : DeviceState} {entry : AdaptableEntry} {task : Task}
  {data : MonitoringData} {now horizon : Int} {round : AdaptationRound} {c : Confirmation}

/-- Whatever a measurement sends for a task is taken by a device that has the same task, and
    afterwards both have the same task again. Neither its length nor its end has changed, and the
    device has no breakpoint that the adapter does not have, unless it had one before. -/
theorem sent_correction_taken (hentry : a.index.get? c.key = some entry)
    (hmirrors : s.Mirrors c.key.flexibilityId entry task)
    (hadapt : a.adapt data now horizon = .ok (round, a')) (hsent : c ∈ round.confirmations) :
    ∃ s' task', s.adapt c.key.flexibilityId c.update = (.ok, s') ∧
      a'.index.get? c.key = some (entry.withPower c.adapted) ∧
      s'.Mirrors c.key.flexibilityId (entry.withPower c.adapted) task' ∧
      task'.runningTime = task.runningTime ∧ task'.power.lastKey? = task.power.lastKey? ∧
      ((∀ k ∈ task.power.keys, k ∈ entry.task.power.keys) →
        ∀ k ∈ task'.power.keys, k ∈ c.adapted.keys) := by
  obtain ⟨entry', hbefore, hafter, hcorrection⟩ :=
    (adapt_revises hadapt c.key).of_mem hsent rfl
  rw [hentry, Option.some.injEq] at hbefore
  subst hbefore
  obtain ⟨s', task', htaken, hmirrors', hkept⟩ := hmirrors.correction hcorrection
  exact ⟨s', task', htaken, hafter, hmirrors', hkept⟩

end Adapter

/-- The hour in a longer form: an entry repeats the value before it. -/
def AdaptableEntry.hourInTwoParts : AdaptableEntry :=
  AdaptableEntry.hourAtHalfKilowatt.withPower (.ofList [(0, 500), (700, 500), (3600, 0)])

/-- A device on which the hour is planned. -/
def DeviceState.hourPlanned : DeviceState :=
  { DeviceState.fresh with
    flexibilities := OrderedMap.singleton 4 AdaptableEntry.hourAtHalfKilowatt.flexibility
    tasks := OrderedMap.singleton 4 AdaptableEntry.hourAtHalfKilowatt.task
    scheduledPower := .ofList [(0, 500), (3600, 0)] }

theorem DeviceState.hourPlanned_mirrors :
    DeviceState.hourPlanned.Mirrors 4 AdaptableEntry.hourInTwoParts
      AdaptableEntry.hourAtHalfKilowatt.task where
  flexibility := rfl
  adaptable := rfl
  stored := rfl
  start := rfl
  profile := by
    have hzero : 0 ∈ AdaptableEntry.hourInTwoParts.task.power.keys := by decide
    have hshort : PowerProfile.compress AdaptableEntry.hourInTwoParts.task.power 3600
        = AdaptableEntry.hourAtHalfKilowatt.task.power := by decide
    exact hshort ▸ (PowerProfile.Condenses.refl hzero).compress 3600

/-- The device takes the correction although it has no breakpoint at 700 s. -/
theorem Adapter.sent_correction_taken_shortfall :
    ∃ a' c s' task', Adapter.adapt ⟨OrderedMap.singleton ⟨⟨1⟩, 4⟩ .hourInTwoParts, .empty 900 300⟩
        .shortfall 600 80 = .ok (⟨1, 0, [c]⟩, a') ∧
      DeviceState.hourPlanned.adapt 4 c.update = (.ok, s') ∧
      s'.Mirrors 4 (AdaptableEntry.hourInTwoParts.withPower c.adapted) task' := by
  let c : Confirmation :=
    { key := ⟨⟨1⟩, 4⟩
      update := .ofList [(600, 600), (680, 500)]
      adapted := .ofList [(0, 500), (600, 600), (680, 500), (700, 500), (3600, 0)]
      backup := .ofList [(0, 500), (700, 500), (3600, 0)] }
  let a : Adapter := ⟨OrderedMap.singleton ⟨⟨1⟩, 4⟩ .hourInTwoParts, .empty 900 300⟩
  have hadapt : a.adapt .shortfall 600 80 = .ok (⟨1, 0, [c]⟩, a.setPower c.key c.adapted) := by
    decide +kernel
  have hentry : a.index.get? c.key = some .hourInTwoParts := rfl
  obtain ⟨s', task', htaken, -, hmirrors, -⟩ := Adapter.sent_correction_taken hentry
    DeviceState.hourPlanned_mirrors hadapt (List.mem_singleton_self c)
  exact ⟨_, c, s', task', hadapt, htaken, hmirrors⟩

/-! ## Measurement after measurement -/

namespace Adapter

variable {a b : Adapter} {s t : DeviceState} {entry : AdaptableEntry} {task : Task}
  {key : AdaptableKey} {horizon : Int} {results : List SchedulingResult}

/-- Measurements from `a` on, while a device that began with `s` answers what is sent for the
    task under `key` before the next one: its answers, the adapter and the device. -/
inductive InTurn (horizon : Int) (key : AdaptableKey) (a : Adapter) (s : DeviceState) :
    List SchedulingResult → Adapter → DeviceState → Prop
  | start : InTurn horizon key a s [] a s
  | spared {results : List SchedulingResult} {b b' : Adapter} {t : DeviceState}
      {data : MonitoringData} {now : Int} {round : AdaptationRound}
      (h : InTurn horizon key a s results b t)
      (hadapt : b.adapt data now horizon = .ok (round, b'))
      (hnone : ∀ c ∈ round.confirmations, c.key ≠ key) : InTurn horizon key a s results b' t
  | corrected {results : List SchedulingResult} {b b' : Adapter} {t t' : DeviceState}
      {data : MonitoringData} {now later : Int} {round : AdaptationRound} {c : Confirmation}
      {result : SchedulingResult} (h : InTurn horizon key a s results b t)
      (hadapt : b.adapt data now horizon = .ok (round, b')) (hsent : c ∈ round.confirmations)
      (hkey : c.key = key) (hanswer : t.adapt key.flexibilityId c.update = (result, t')) :
      InTurn horizon key a s (results ++ [result]) (b'.settle c (.ok result) later) t'

/-- As long as every correction is answered before the next measurement, a device that had the
    same task at first never refuses one and has the same task at last. -/
theorem InTurn.never_refused (h : InTurn horizon key a s results b t)
    (hentry : a.index.get? key = some entry) (hmirrors : s.Mirrors key.flexibilityId entry task) :
    (∀ result ∈ results, result = .ok) ∧
      ∃ power task', b.index.get? key = some (entry.withPower power) ∧
        t.Mirrors key.flexibilityId (entry.withPower power) task' := by
  induction h with
  | start => exact ⟨fun _ h => (List.not_mem_nil h).elim, entry.task.power, task, hentry, hmirrors⟩
  | spared _ hadapt hnone ih =>
      obtain ⟨htaken, power, task', hget, hsame⟩ := ih
      exact ⟨htaken, power, task', (adapt_revises hadapt key).eq_of_none hnone ▸ hget, hsame⟩
  | @corrected results b b' t t' data now later round c result _ hadapt hsent hkey hanswer ih =>
      obtain ⟨htaken, power, task', hget, hsame⟩ := ih
      obtain ⟨entry', hbefore, hafter, hcorrection⟩ :=
        (adapt_revises hadapt key).of_mem hsent hkey
      rw [hget, Option.some.injEq] at hbefore
      subst hbefore
      obtain ⟨s', task'', hok, hsame', -⟩ := hsame.correction hcorrection
      rw [hanswer, Prod.mk.injEq] at hok
      obtain ⟨rfl, rfl⟩ := hok
      -- A correction that has been taken is left as it is.
      refine ⟨fun result hresult => ?_, c.adapted, task'', hafter, hsame'⟩
      rcases List.mem_append.1 hresult with hearlier | hlast
      · exact htaken result hearlier
      · exact List.mem_singleton.1 hlast

end Adapter

end SiteDispatch
