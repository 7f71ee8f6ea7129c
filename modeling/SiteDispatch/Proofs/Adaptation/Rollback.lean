/-
  SiteDispatch.Proofs.Adaptation.Rollback

  Which refused corrections are undone.

  A correction is undone by giving the entry its former profile back, but only while it still has
  the corrected one. Measurements go on while answers are on their way, so that a correction may
  be made on top of another one that is refused later. If every task's corrections are answered
  last one first, each answer uncovers the profile below it, down to the first. If one is answered
  while a later one is on top of it, the profile below it is lost: nothing brings it back.
-/

import Mathlib.Data.List.Induction
import SiteDispatch.Proofs.Adaptation.Round

namespace SiteDispatch

/-! ## Measurements and answers -/

/-- A correction that its device has answered. -/
structure SettledCorrection where
  correction : Confirmation
  reply : Except TransportError SchedulingResult
  /-- Corrections sent after it that were still unanswered. -/
  newer : List Confirmation

namespace SettledCorrection

/-- The device did not take the correction. -/
def Refused (s : SettledCorrection) : Prop := s.reply ≠ .ok .ok

/-- No later correction of the same task was unanswered. -/
def Newest (s : SettledCorrection) : Prop := ∀ c ∈ s.newer, c.key ≠ s.correction.key

theorem newest_iff {s : SettledCorrection} :
    s.Newest ↔ s.newer.filter (·.key = s.correction.key) = [] := by
  simp [Newest]

end SettledCorrection

/-- Measurements and answers from the adapter `first` on, in any order: the answers that have
    arrived and the corrections that are unanswered, oldest first, and the adapter. A measurement
    may find the index in use. -/
inductive Adapter.Exchanges (horizon : Int) (first : Adapter) :
    List SettledCorrection → List Confirmation → Adapter → Prop
  | start : Exchanges horizon first [] [] first
  | measured {log : List SettledCorrection} {sent : List Confirmation} {a a' : Adapter}
      {round : AdaptationRound} {locked : Bool} {data : MonitoringData} {now : Int}
      (h : Exchanges horizon first log sent a)
      (hadapt : a.adaptUnlessLocked locked data now horizon = .ok (round, a')) :
      Exchanges horizon first log (sent ++ round.confirmations) a'
  | answered {log : List SettledCorrection} {older newer : List Confirmation} {c : Confirmation}
      {a : Adapter} (h : Exchanges horizon first log (older ++ c :: newer) a)
      (reply : Except TransportError SchedulingResult) (now : Int) :
      Exchanges horizon first (log ++ [⟨c, reply, newer⟩]) (older ++ newer) (a.settle c reply now)

/-! ## The profile of one task -/

/-- The profile of a task while corrections of it are sent and refused. -/
inductive ProfileHistory (original : PowerProfile) :
    List SettledCorrection → List Confirmation → PowerProfile → Prop
  | start : ProfileHistory original [] [] original
  | corrected {log : List SettledCorrection} {sent : List Confirmation} {c : Confirmation}
      (h : ProfileHistory original log sent c.backup) :
      ProfileHistory original log (sent ++ [c]) c.adapted
  | refused {log : List SettledCorrection} {older newer : List Confirmation}
      {s : SettledCorrection} {power : PowerProfile}
      (h : ProfileHistory original log (older ++ s.correction :: newer) power)
      (hnewest : s.Newest ↔ newer = []) :
      ProfileHistory original (log ++ [s]) (older ++ newer)
        (if power = s.correction.adapted then s.correction.backup else power)

/-- Corrections on top of each other: each was made on what the one below it had brought. -/
inductive Stacked (original : PowerProfile) : List Confirmation → PowerProfile → Prop
  | bottom : Stacked original [] original
  | push {sent : List Confirmation} {c : Confirmation} (h : Stacked original sent c.backup) :
      Stacked original (sent ++ [c]) c.adapted

namespace Stacked

variable {original power : PowerProfile} {older newer : List Confirmation} {c : Confirmation}

/-- Below the topmost correction is what it was made on. -/
theorem pop (h : Stacked original (older ++ [c]) power) :
    power = c.adapted ∧ Stacked original older c.backup := by
  generalize hsent : older ++ [c] = sent at h
  cases h with
  | bottom => simp at hsent
  | push h =>
      obtain ⟨rfl, htop⟩ := List.append_inj' hsent rfl
      cases htop
      exact ⟨rfl, h⟩

theorem eq_original (h : Stacked original [] power) : power = original := by
  generalize hsent : [] = sent at h
  cases h with
  | bottom => rfl
  | push h => simp at hsent

/-- The corrections above one were made on what it or another one above it had brought. -/
theorem above (h : Stacked original (older ++ c :: newer) power) :
    power ∈ (c :: newer).map (·.adapted) ∧ (newer ≠ [] → power ∈ newer.map (·.adapted)) ∧
      ∀ c' ∈ newer, c'.backup ∈ (c :: newer).map (·.adapted) := by
  induction newer using List.reverseRecOn generalizing power with
  | nil =>
      obtain ⟨rfl, -⟩ := h.pop
      simp
  | append_singleton newer top ih =>
      rw [← List.cons_append, ← List.append_assoc] at h
      obtain ⟨rfl, hbelow⟩ := h.pop
      obtain ⟨hbackup, -, hbackups⟩ := ih hbelow
      have hwiden : ∀ p ∈ (c :: newer).map (·.adapted),
          p ∈ (c :: (newer ++ [top])).map (·.adapted) := by
        intro p hp
        rw [← List.cons_append, List.map_append]
        exact List.mem_append_left _ hp
      refine ⟨by simp, by simp, fun c' hc' => ?_⟩
      rcases List.mem_append.1 hc' with hc' | hc'
      · exact hwiden _ (hbackups c' hc')
      · rw [List.mem_singleton.1 hc']
        exact hwiden _ hbackup

end Stacked

/-- The original profile is lost for good: neither the entry has it nor can a correction bring it
    back, and the same holds for every profile on which one could. -/
def LosesOriginal (original : PowerProfile) (profiles : List PowerProfile)
    (sent : List Confirmation) (power : PowerProfile) : Prop :=
  ∃ gone : List PowerProfile, original ∈ gone ∧ gone ⊆ profiles ∧ power ∉ gone ∧
    ∀ c ∈ sent, c.adapted ∈ gone ∨ c.backup ∉ gone

namespace ProfileHistory

variable {original power : PowerProfile} {log : List SettledCorrection}
  {sent : List Confirmation}

/-- The profiles that there have been. -/
def profiles (original : PowerProfile) (log : List SettledCorrection) (sent : List Confirmation) :
    List PowerProfile :=
  original :: (log.map (·.correction) ++ sent).map (·.adapted)

theorem profiles_nil : profiles original log [] = original :: log.map (·.correction.adapted) := by
  simp [profiles]

theorem profiles_corrected (c : Confirmation) :
    profiles original log (sent ++ [c]) = profiles original log sent ++ [c.adapted] := by
  simp [profiles]

/-- An answer brings no profile and takes none away. -/
theorem profiles_refused (older newer : List Confirmation) (s : SettledCorrection) :
    (profiles original (log ++ [s]) (older ++ newer)).Perm
      (profiles original log (older ++ s.correction :: newer)) := by
  refine List.Perm.cons _ (List.Perm.map _ ?_)
  rw [List.map_append, List.map_singleton, List.append_assoc, List.singleton_append]
  exact List.perm_middle.symm.append_left _

/-- Every answer that comes for the topmost correction uncovers the one below it. -/
theorem stacked (h : ProfileHistory original log sent power) (hnewest : ∀ s ∈ log, s.Newest) :
    Stacked original sent power := by
  induction h with
  | start => exact .bottom
  | corrected h ih => exact .push (ih hnewest)
  | @refused log older newer s power h hs ih =>
      obtain rfl := hs.1 (hnewest s (by simp))
      obtain ⟨rfl, hbelow⟩ := (ih fun s' hs' => hnewest s' (by simp [hs'])).pop
      rw [if_pos rfl, List.append_nil]
      exact hbelow

/-- Whatever the order of the answers, a profile is the original one or a corrected one. -/
theorem mem_profiles (h : ProfileHistory original log sent power) :
    power ∈ profiles original log sent ∧
      ∀ c ∈ sent, c.backup ∈ profiles original log sent := by
  induction h with
  | start => exact ⟨List.mem_cons_self, fun c hc => (List.not_mem_nil hc).elim⟩
  | @corrected log sent c h ih =>
      rw [profiles_corrected]
      refine ⟨List.mem_append_right _ (List.mem_singleton_self _), fun c' hc' => ?_⟩
      apply List.mem_append_left
      rcases List.mem_append.1 hc' with hc' | hc'
      · exact ih.2 c' hc'
      · rw [List.mem_singleton.1 hc']
        exact ih.1
  | @refused log older newer s power h hs ih =>
      have hsame : ∀ p, p ∈ profiles original log (older ++ s.correction :: newer) →
          p ∈ profiles original (log ++ [s]) (older ++ newer) :=
        fun p hp => (profiles_refused older newer s).mem_iff.2 hp
      refine ⟨hsame _ ?_, fun c' hc' => hsame _ (ih.2 c' ?_)⟩
      · split
        · exact ih.2 _ (by simp)
        · exact ih.1
      · rw [List.mem_append] at hc'
        rw [List.mem_append, List.mem_cons]
        exact hc'.imp_right .inr

/-- Lost is what an answer finds below a correction that is not the topmost one. -/
theorem losesOriginal_of_stacked {older newer : List Confirmation} {s : SettledCorrection}
    (h : Stacked original (older ++ s.correction :: newer) power) (hnewer : newer ≠ [])
    (hnodup : (profiles original log (older ++ s.correction :: newer)).Nodup) :
    LosesOriginal original (profiles original (log ++ [s]) (older ++ newer)) (older ++ newer)
      (if power = s.correction.adapted then s.correction.backup else power) := by
  obtain ⟨-, htop, hbackups⟩ := h.above
  -- What lies below the correction, and what it and those above it brought.
  have hparts : ((original :: older.map (·.adapted)) ++
      (s.correction :: newer).map (·.adapted)).Sublist
        (profiles original log (older ++ s.correction :: newer)) := by
    rw [List.cons_append, ← List.map_append]
    exact ((List.sublist_append_right _ _).map _).cons_cons _
  obtain ⟨-, habove, hdisjoint⟩ := List.nodup_append.1 (List.Nodup.sublist hparts hnodup)
  have hkept : power ≠ s.correction.adapted := by
    rintro rfl
    exact (List.nodup_cons.1 habove).1 (htop hnewer)
  rw [if_neg hkept]
  refine ⟨original :: older.map (·.adapted), List.mem_cons_self, ?_, ?_, ?_⟩
  · intro p hp
    rw [(profiles_refused older newer s).mem_iff]
    exact hparts.subset (List.mem_append_left _ hp)
  · exact fun hgone => hdisjoint _ hgone _ (List.mem_cons_of_mem _ (htop hnewer)) rfl
  · intro c hc
    rcases List.mem_append.1 hc with hc | hc
    · exact .inl (List.mem_cons_of_mem _ (List.mem_map_of_mem hc))
    · exact .inr fun hgone => hdisjoint _ hgone _ (hbackups c hc) rfl

/-- As long as no two profiles are the same, the first answer that comes too early is fatal. -/
theorem newest_or_losesOriginal (h : ProfileHistory original log sent power)
    (hnodup : (profiles original log sent).Nodup) :
    (∀ s ∈ log, s.Newest) ∨
      LosesOriginal original (profiles original log sent) sent power := by
  induction h with
  | start => exact .inl fun s hs => (List.not_mem_nil hs).elim
  | @corrected log sent c h ih =>
      rw [profiles_corrected] at hnodup ⊢
      obtain ⟨hbefore, -, hfresh⟩ := List.nodup_append.1 hnodup
      refine (ih hbefore).imp_right ?_
      rintro ⟨gone, horiginal, hsubset, hpower, hsent⟩
      refine ⟨gone, horiginal, List.subset_append_of_subset_left _ hsubset, ?_, ?_⟩
      · exact fun hgone => hfresh _ (hsubset hgone) _ (List.mem_singleton_self _) rfl
      · intro c' hc'
        rcases List.mem_append.1 hc' with hc' | hc'
        · exact hsent c' hc'
        · rw [List.mem_singleton.1 hc']
          exact .inr hpower
  | @refused log older newer s power h hs ih =>
      have hbefore := (profiles_refused older newer s).nodup_iff.1 hnodup
      rcases ih hbefore with hnewest | ⟨gone, horiginal, hsubset, hpower, hsent⟩
      · by_cases hlast : newer = []
        · left
          intro s' hs'
          rcases List.mem_append.1 hs' with hs' | hs'
          · exact hnewest s' hs'
          · rw [List.mem_singleton.1 hs']
            exact hs.2 hlast
        · exact .inr (losesOriginal_of_stacked (h.stacked hnewest) hlast hbefore)
      · -- What is lost stays lost.
        refine .inr ⟨gone, horiginal, fun p hp => ?_, ?_, fun c hc => hsent c ?_⟩
        · exact (profiles_refused older newer s).mem_iff.2 (hsubset hp)
        · split
          · rename_i heq
            exact (hsent s.correction (by simp)).resolve_left (heq ▸ hpower)
          · exact hpower
        · rw [List.mem_append] at hc
          rw [List.mem_append, List.mem_cons]
          exact hc.imp_right .inr

end ProfileHistory

/-! ## All tasks -/

/-- An entry is given its former profile back if it has the corrected one. -/
theorem AdaptableEntry.undo_withPower (entry : AdaptableEntry) (power : PowerProfile)
    (c : Confirmation) :
    (if (entry.withPower power).task.power = c.adapted then
        (entry.withPower power).withPower c.backup
      else entry.withPower power)
      = entry.withPower (if power = c.adapted then c.backup else power) := by
  show (if power = c.adapted then _ else _) = _
  split_ifs <;> rfl

namespace Adapter

variable {a a' first : Adapter} {horizon : Int} {log : List SettledCorrection}
  {sent : List Confirmation} {key : AdaptableKey} {entry : AdaptableEntry}

/-- A refusal reaches the entry of its own task only, and that only while it has the corrected
    profile. -/
theorem get?_settle_of_refused (a : Adapter) (c : Confirmation)
    {reply : Except TransportError SchedulingResult} (hrefused : reply ≠ .ok .ok) (now : Int)
    (key : AdaptableKey) :
    (a.settle c reply now).index.get? key
      = if c.key = key then
          (a.index.get? key).map fun entry =>
            if entry.task.power = c.adapted then entry.withPower c.backup else entry
        else a.index.get? key := by
  unfold settle
  split
  · exact absurd rfl hrefused
  · dsimp only [requestOptimization]
    cases hentry : a.index.get? c.key with
    | none =>
        split_ifs with hkey
        · rw [← hkey, hentry]
          rfl
        · rfl
    | some entry =>
        dsimp only
        split_ifs with hpower hkey hkey
        · rw [get?_setPower, if_pos hkey.symm, ← hkey, hentry, Option.map_some, Option.map_some,
            if_pos hpower]
        · rw [get?_setPower, if_neg (Ne.symm hkey)]
        · rw [← hkey, hentry, Option.map_some, if_neg hpower]
        · rfl

/-- An entry that is not there stays away. -/
theorem Exchanges.get?_eq_none (hrun : Exchanges horizon first log sent a)
    (hrefused : ∀ s ∈ log, s.Refused) (hnone : first.index.get? key = none) :
    a.index.get? key = none := by
  induction hrun with
  | start => exact hnone
  | @measured log sent a a' round locked data now h hadapt ih =>
      have hbefore := ih hrefused
      rw [adaptUnlessLocked] at hadapt
      split_ifs at hadapt with hlocked
      · cases hadapt
        exact hbefore
      · have hrevises := adapt_revises hadapt key
        rw [hbefore] at hrevises
        generalize a'.index.get? key = after at hrevises
        cases hrevises
        rfl
  | @answered log older newer c a h reply now ih =>
      have hreply : reply ≠ .ok .ok := hrefused ⟨c, reply, newer⟩ (by simp)
      have hbefore := ih fun s hs => hrefused s (by simp [hs])
      rw [get?_settle_of_refused a c hreply, hbefore]
      split <;> rfl

/-- The entry of `key`, which was `entry` at first, has gone through a history of its own: of all
    corrections and answers only those of its task have counted. -/
def HasHistory (key : AdaptableKey) (entry : AdaptableEntry) (log : List SettledCorrection)
    (sent : List Confirmation) (a : Adapter) : Prop :=
  ∃ power, a.index.get? key = some (entry.withPower power) ∧
    ProfileHistory entry.task.power (log.filter (·.correction.key = key))
      (sent.filter (·.key = key)) power

namespace HasHistory

/-- A measurement goes on with the history if it corrects the task. -/
theorem measured (h : HasHistory key entry log sent a) {data : MonitoringData} {now : Int}
    {round : AdaptationRound} (hadapt : a.adapt data now horizon = .ok (round, a')) :
    HasHistory key entry log (sent ++ round.confirmations) a' := by
  obtain ⟨power, hbefore, hhistory⟩ := h
  have hrevises := adapt_revises hadapt key
  rw [hbefore] at hrevises
  rw [HasHistory, List.filter_append]
  generalize a'.index.get? key = after at hrevises ⊢
  cases hrevises with
  | untouched hnone =>
      refine ⟨power, rfl, ?_⟩
      have hskip : round.confirmations.filter (·.key = key) = [] :=
        List.filter_eq_nil_iff.2 (by simpa using hnone)
      rw [hskip, List.append_nil]
      exact hhistory
  | @corrected _ c honly hcorrection =>
      obtain ⟨-, hbackup⟩ := AdaptableEntry.backup_of_correction hcorrection
      refine ⟨c.adapted, rfl, ?_⟩
      rw [honly]
      apply ProfileHistory.corrected
      rw [hbackup]
      exact hhistory

variable {older newer : List Confirmation} {c : Confirmation}
  {reply : Except TransportError SchedulingResult}

/-- The refusal of a correction of the task is part of the history, -/
theorem refused (h : HasHistory c.key entry log (older ++ c :: newer) a)
    (hrefused : reply ≠ .ok .ok) (now : Int) :
    HasHistory c.key entry (log ++ [⟨c, reply, newer⟩]) (older ++ newer)
      (a.settle c reply now) := by
  obtain ⟨power, hbefore, hhistory⟩ := h
  rw [List.filter_append, List.filter_cons_of_pos (by simp)] at hhistory
  refine ⟨if power = c.adapted then c.backup else power, ?_, ?_⟩
  · rw [get?_settle_of_refused a c hrefused, hbefore, if_pos rfl, Option.map_some]
    exact congrArg some (AdaptableEntry.undo_withPower entry power c)
  · have hsettled : List.filter (·.correction.key = c.key)
        [(⟨c, reply, newer⟩ : SettledCorrection)] = [⟨c, reply, newer⟩] :=
      List.filter_cons_of_pos (by simp)
    rw [List.filter_append, List.filter_append, hsettled]
    exact .refused hhistory SettledCorrection.newest_iff

/-- and that of a correction of another one is not. -/
theorem refused_other (h : HasHistory key entry log (older ++ c :: newer) a)
    (hother : c.key ≠ key) (hrefused : reply ≠ .ok .ok) (now : Int) :
    HasHistory key entry (log ++ [⟨c, reply, newer⟩]) (older ++ newer) (a.settle c reply now) := by
  obtain ⟨power, hbefore, hhistory⟩ := h
  rw [List.filter_append, List.filter_cons_of_neg (by simpa using hother)] at hhistory
  refine ⟨power, ?_, ?_⟩
  · rw [get?_settle_of_refused a c hrefused, hbefore, if_neg hother]
  · have hsettled : List.filter (·.correction.key = key)
        [(⟨c, reply, newer⟩ : SettledCorrection)] = [] :=
      List.filter_cons_of_neg (by simpa using hother)
    rw [List.filter_append, List.filter_append, hsettled, List.append_nil]
    exact hhistory

end HasHistory

/-- Every entry that has been there from the first goes through a history of its own. -/
theorem Exchanges.hasHistory (hrun : Exchanges horizon first log sent a)
    (hrefused : ∀ s ∈ log, s.Refused) (hentry : first.index.get? key = some entry) :
    HasHistory key entry log sent a := by
  induction hrun with
  | start => exact ⟨entry.task.power, hentry, .start⟩
  | @measured log sent a a' round locked data now h hadapt ih =>
      have hbefore := ih hrefused
      rw [adaptUnlessLocked] at hadapt
      split_ifs at hadapt with hlocked
      · cases hadapt
        rw [AdaptationRound.nothing, List.append_nil]
        exact hbefore
      · exact hbefore.measured hadapt
  | @answered log older newer c a h reply now ih =>
      have hreply : reply ≠ .ok .ok := hrefused ⟨c, reply, newer⟩ (by simp)
      have hbefore := ih fun s hs => hrefused s (by simp [hs])
      by_cases hkey : c.key = key
      · subst hkey
        exact hbefore.refused hreply now
      · exact hbefore.refused_other hkey hreply now

/-- The answers to the corrections of one task. -/
def answersTo (key : AdaptableKey) (log : List SettledCorrection) : List SettledCorrection :=
  log.filter (·.correction.key = key)

/-- When every correction has been refused and answered, every entry has its original profile or
    one of the corrected ones. If each answer came while its correction was the newest of the task,
    the original one is back; otherwise it is lost, unless two of the profiles were the same. -/
theorem refused_corrections_undone_iff (hrun : Exchanges horizon first log [] a)
    (hrefused : ∀ s ∈ log, s.Refused) :
    ((∀ s ∈ log, s.Newest) → a.index = first.index) ∧
    ∀ key entry, first.index.get? key = some entry →
      ∃ power, a.index.get? key = some (entry.withPower power) ∧
        power ∈ entry.task.power :: (answersTo key log).map (·.correction.adapted) ∧
        ((entry.task.power :: (answersTo key log).map (·.correction.adapted)).Nodup →
          (power = entry.task.power ↔ ∀ s ∈ answersTo key log, s.Newest)) := by
  constructor
  · intro hnewest
    apply OrderedMap.ext_get?
    intro key
    cases hentry : first.index.get? key with
    | none => exact hrun.get?_eq_none hrefused hentry
    | some entry =>
        obtain ⟨power, hget, hhistory⟩ := hrun.hasHistory hrefused hentry
        have hstack := hhistory.stacked fun s hs => hnewest s (List.mem_filter.1 hs).1
        rw [hget, hstack.eq_original]
        rfl
  · intro key entry hentry
    obtain ⟨power, hget, hhistory⟩ := hrun.hasHistory hrefused hentry
    have hmem := hhistory.mem_profiles.1
    have hfate := hhistory.newest_or_losesOriginal
    rw [List.filter_nil, ProfileHistory.profiles_nil] at hmem hfate
    refine ⟨power, hget, hmem, fun hnodup => ⟨fun heq => ?_, fun hnewest => ?_⟩⟩
    · rcases hfate hnodup with hnewest | ⟨gone, horiginal, -, hpower, -⟩
      · exact hnewest
      · exact absurd (heq ▸ horiginal) hpower
    · exact (hhistory.stacked hnewest).eq_original

end Adapter

namespace Confirmation

/-- What is sent at a shortfall after ten minutes. -/
def tenMinutes : Confirmation where
  key := ⟨⟨1⟩, 4⟩
  update := .ofList [(600, 600), (680, 500)]
  adapted := .ofList [(0, 500), (600, 600), (680, 500), (3600, 0)]
  backup := .ofList [(0, 500), (3600, 0)]

/-- What is sent at another one ten seconds later. -/
def tenSecondsLater : Confirmation where
  key := ⟨⟨1⟩, 4⟩
  update := .ofList [(610, 700), (690, 500)]
  adapted := .ofList [(0, 500), (600, 600), (610, 700), (690, 500), (3600, 0)]
  backup := .ofList [(0, 500), (600, 600), (680, 500), (3600, 0)]

end Confirmation

namespace Adapter

/-- Both have been sent, and none has been answered. -/
theorem exchanges_twoShortfalls :
    Exchanges 80 oneHour [] [.tenMinutes, .tenSecondsLater]
      (oneHour.setPower ⟨⟨1⟩, 4⟩ Confirmation.tenSecondsLater.adapted) := by
  have hfirst : oneHour.adaptUnlessLocked false .shortfall 600 80
      = .ok (⟨1, 0, [.tenMinutes]⟩,
          oneHour.setPower ⟨⟨1⟩, 4⟩ Confirmation.tenMinutes.adapted) := by
    decide +kernel
  have hsecond : (oneHour.setPower ⟨⟨1⟩, 4⟩ Confirmation.tenMinutes.adapted).adaptUnlessLocked
      false .shortfall 610 80
      = .ok (⟨1, 0, [.tenSecondsLater]⟩,
          oneHour.setPower ⟨⟨1⟩, 4⟩ Confirmation.tenSecondsLater.adapted) := by
    decide +kernel
  exact .measured (.measured .start hfirst) hsecond

/-- The later one is refused first. -/
theorem refused_corrections_undone_lastFirst :
    ∃ log a, Exchanges 80 oneHour log [] a ∧
      log.map (·.correction) = [.tenSecondsLater, .tenMinutes] ∧ (∀ s ∈ log, s.Refused) ∧
      (∀ s ∈ log, s.Newest) ∧ a.index = oneHour.index := by
  have hsent : Exchanges 80 oneHour [] ([.tenMinutes] ++ .tenSecondsLater :: []) _ :=
    exchanges_twoShortfalls
  have hlater : Exchanges 80 oneHour [⟨.tenSecondsLater, .ok .fail, []⟩]
      ([] ++ .tenMinutes :: []) _ := hsent.answered (.ok .fail) 612
  have hrun : Exchanges 80 oneHour
      [⟨.tenSecondsLater, .ok .fail, []⟩, ⟨.tenMinutes, .ok .fail, []⟩] [] _ :=
    hlater.answered (.ok .fail) 613
  have hrefused : ∀ s ∈ [(⟨.tenSecondsLater, .ok .fail, []⟩ : SettledCorrection),
      ⟨.tenMinutes, .ok .fail, []⟩], s.Refused := by
    simp [SettledCorrection.Refused]
  have hnewest : ∀ s ∈ [(⟨.tenSecondsLater, .ok .fail, []⟩ : SettledCorrection),
      ⟨.tenMinutes, .ok .fail, []⟩], s.Newest := by
    simp [SettledCorrection.Newest]
  exact ⟨_, _, hrun, rfl, hrefused, hnewest,
    (refused_corrections_undone_iff hrun hrefused).1 hnewest⟩

/-- Refused corrections are not always undone. If the earlier one is refused first, the entry does
    not have its profile any more and stays as it is; when the later one is refused too, the entry
    gets the profile of the earlier one, although no device has ever taken it. -/
theorem refused_correction_comes_back :
    ∃ log a, Exchanges 80 oneHour log [] a ∧
      log.map (·.correction) = [.tenMinutes, .tenSecondsLater] ∧ (∀ s ∈ log, s.Refused) ∧
      a.index.get? ⟨⟨1⟩, 4⟩
        = some (AdaptableEntry.hourAtHalfKilowatt.withPower Confirmation.tenMinutes.adapted) ∧
      a.index ≠ oneHour.index := by
  have hsent : Exchanges 80 oneHour [] ([] ++ .tenMinutes :: [.tenSecondsLater]) _ :=
    exchanges_twoShortfalls
  have hearlier : Exchanges 80 oneHour [⟨.tenMinutes, .ok .fail, [.tenSecondsLater]⟩]
      ([] ++ .tenSecondsLater :: []) _ := hsent.answered (.ok .fail) 612
  have hrun : Exchanges 80 oneHour
      [⟨.tenMinutes, .ok .fail, [.tenSecondsLater]⟩, ⟨.tenSecondsLater, .ok .fail, []⟩] [] _ :=
    hearlier.answered (.ok .fail) 613
  exact ⟨_, _, hrun, rfl, by simp [SettledCorrection.Refused], by decide, by decide⟩

end Adapter

end SiteDispatch
