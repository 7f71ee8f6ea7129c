/-
  SiteDispatch.Proofs.Snapshot.Newest

  A snapshot file never goes back in time.

  Snapshots are taken and committed in any order, each committed at most once, and any
  write may fail. A commit has the file to itself; snapshots that are taken meanwhile do
  not matter to it (`commit_stage`), so that whole calls follow one another. `Orderly`
  is what every call keeps: the number that the file goes by is that of the newest
  snapshot in it, and no two snapshots share a number.
-/

import Mathlib.Data.List.Nodup
import SiteDispatch.Snapshot.File

namespace SiteDispatch

/-! ## One write -/

namespace SnapshotFile

variable {τ : Type} {f : SnapshotFile τ}

/-- A snapshot that is newer than the one in the file is written if the medium takes it. -/
theorem commit_of_newer {s : StagedSnapshot τ} (hnew : f.written < s.number) :
    f.commit s true = (.ok true, { f with written := s.number, content := some s.content }) := by
  rw [commit, if_neg (Nat.not_le.2 hnew), if_pos rfl]

/-- What is saved at once is newer than anything in the file. -/
theorem save_eq (hcounted : f.written ≤ f.staged) (content : τ) :
    f.save content true = ⟨f.staged + 1, f.staged + 1, some content, f.aside⟩ := by
  have hnew : (f.stage content).2.written < (f.stage content).1.number := Nat.lt_succ_of_le hcounted
  simp only [save, commit_of_newer hnew]
  rfl

end SnapshotFile

/-! ## Calls in any order -/

/-- A snapshot file among those who use it: the snapshots that have been taken and wait to be
    committed, and those whose commit has gone through. -/
structure SnapshotTraffic (τ : Type) where
  file : SnapshotFile τ
  waiting : List (StagedSnapshot τ)
  landed : List (StagedSnapshot τ)

namespace SnapshotTraffic

variable {τ : Type}

/-- The traffic after a snapshot of `content` has been taken. -/
def staged (t : SnapshotTraffic τ) (content : τ) : SnapshotTraffic τ where
  file := (t.file.stage content).2
  waiting := (t.file.stage content).1 :: t.waiting
  landed := t.landed

/-- The traffic after `snapshot` has been committed, `rest` being left to wait. It has landed if
    the commit says that it was written. -/
def committed (t : SnapshotTraffic τ) (snapshot : StagedSnapshot τ) (succeeds : Bool)
    (rest : List (StagedSnapshot τ)) : SnapshotTraffic τ where
  file := (t.file.commit snapshot succeeds).2
  waiting := rest
  landed :=
    if (t.file.commit snapshot succeeds).1 = .ok true then snapshot :: t.landed else t.landed

/-- One call: a snapshot is taken, or one that waits is committed and waits no longer. -/
inductive Step (t : SnapshotTraffic τ) : SnapshotTraffic τ → Prop
  | stage (content : τ) : Step t (t.staged content)
  | commit (front back : List (StagedSnapshot τ)) (snapshot : StagedSnapshot τ) (succeeds : Bool)
      (hwaiting : t.waiting = front ++ snapshot :: back) :
      Step t (t.committed snapshot succeeds (front ++ back))

/-- What any calls to a file lead to, `f` being found when it is opened. -/
inductive Reached (f : SnapshotFile τ) : SnapshotTraffic τ → Prop
  | opened : Reached f ⟨f.reopened, [], []⟩
  | step {t t' : SnapshotTraffic τ} : Reached f t → Step t t' → Reached f t'

/-- The file holds the newest snapshot that has landed, and what it held before if none has. -/
def HoldsNewest (before : Option τ) (t : SnapshotTraffic τ) : Prop :=
  (t.landed = [] ∧ t.file.content = before) ∨
    ∃ newest ∈ t.landed, t.file.content = some newest.content ∧
      ∀ snapshot ∈ t.landed, snapshot = newest ∨ snapshot.number < newest.number

/-- A newer snapshot is in the file already. -/
def Supersedes (t : SnapshotTraffic τ) (snapshot : StagedSnapshot τ) : Prop :=
  ∃ newer ∈ t.landed, snapshot.number < newer.number

/-! ## What every call keeps -/

/-- Snapshots have numbers of their own, from 1 up to the latest one taken. The file goes by the
    number of the newest snapshot that has landed, and holds that one. -/
structure Orderly (before : Option τ) (t : SnapshotTraffic τ) : Prop where
  positive : ∀ s ∈ t.waiting ++ t.landed, 0 < s.number
  counted : ∀ s ∈ t.waiting ++ t.landed, s.number ≤ t.file.staged
  apart : ((t.waiting ++ t.landed).map (·.number)).Nodup
  passed : ∀ s ∈ t.landed, s.number ≤ t.file.written
  held : (t.landed = [] ∧ t.file.written = 0 ∧ t.file.content = before) ∨
    ∃ s ∈ t.landed, s.number = t.file.written ∧ t.file.content = some s.content

section Orderly

variable {t : SnapshotTraffic τ} {before : Option τ} {s : StagedSnapshot τ}

/-- A snapshot that waits is superseded exactly if the file is past its number. -/
theorem Orderly.supersedes_iff (h : t.Orderly before) (hs : s ∈ t.waiting) :
    t.Supersedes s ↔ s.number ≤ t.file.written := by
  constructor
  · rintro ⟨newer, hmem, hlt⟩
    have := h.passed newer hmem
    omega
  · intro hle
    rcases h.held with ⟨-, hzero, -⟩ | ⟨newest, hmem, hnumber, -⟩
    · -- Before the first commit the file is past no number.
      have := h.positive s (List.mem_append_left _ hs)
      omega
    · refine ⟨newest, hmem, ?_⟩
      have hapart := h.apart
      rw [List.map_append, List.nodup_append] at hapart
      have hne := hapart.2.2 _ (List.mem_map_of_mem hs) _ (List.mem_map_of_mem hmem)
      omega

theorem Orderly.holdsNewest (h : t.Orderly before) : t.HoldsNewest before := by
  rcases h.held with ⟨hnone, -, hcontent⟩ | ⟨newest, hmem, hnumber, hcontent⟩
  · exact .inl ⟨hnone, hcontent⟩
  · refine .inr ⟨newest, hmem, hcontent, fun s hs => ?_⟩
    have hle := h.passed s hs
    by_cases heq : s.number = newest.number
    · -- Two snapshots of one number are the same.
      have hapart := h.apart
      rw [List.map_append, List.nodup_append] at hapart
      exact .inl (List.inj_on_of_nodup_map hapart.2.1 hs hmem heq)
    · exact .inr (by omega)

theorem orderly_opened (f : SnapshotFile τ) : Orderly f.content ⟨f.reopened, [], []⟩ where
  positive := by simp
  counted := by simp
  apart := .nil
  passed := by simp
  held := .inl ⟨rfl, rfl, rfl⟩

theorem Orderly.staged (h : t.Orderly before) (content : τ) :
    (t.staged content).Orderly before where
  positive s hs := by
    rcases List.mem_cons.1 hs with rfl | hs
    · exact Nat.succ_pos _
    · exact h.positive s hs
  counted s hs := by
    rcases List.mem_cons.1 hs with rfl | hs
    · exact Nat.le_refl _
    · exact Nat.le_succ_of_le (h.counted s hs)
  apart := by
    -- The new number is larger than all that have been given.
    refine List.nodup_cons.2 ⟨fun hmem => ?_, h.apart⟩
    obtain ⟨s, hs, heq⟩ := List.mem_map.1 hmem
    have hle := h.counted s hs
    have hnumber : s.number = t.file.staged + 1 := heq
    omega
  passed := h.passed
  held := h.held

/-- A snapshot that is dropped or not written leaves the file and the others as they are. -/
theorem Orderly.dropped (h : t.Orderly before) {front back : List (StagedSnapshot τ)}
    (hwaiting : t.waiting = front ++ s :: back) :
    Orderly before { t with waiting := front ++ back } := by
  have hsub : (front ++ back ++ t.landed).Sublist (t.waiting ++ t.landed) := by
    rw [hwaiting]
    exact ((List.sublist_cons_self s back).append_left front).append_right t.landed
  exact ⟨fun s hs => h.positive s (hsub.subset hs), fun s hs => h.counted s (hsub.subset hs),
    h.apart.sublist (hsub.map _), h.passed, h.held⟩

/-- A snapshot that is written becomes what the file holds and goes by. -/
theorem Orderly.written (h : t.Orderly before) {front back : List (StagedSnapshot τ)}
    (hwaiting : t.waiting = front ++ s :: back) (hnew : t.file.written < s.number) :
    Orderly before
      { file := { t.file with written := s.number, content := some s.content }
        waiting := front ++ back
        landed := s :: t.landed } := by
  -- The same snapshots as before, one of them on the other side.
  have hperm : (front ++ back ++ s :: t.landed).Perm (t.waiting ++ t.landed) := by
    rw [hwaiting]
    exact List.perm_middle.trans (List.perm_middle.symm.append_right t.landed)
  refine ⟨fun s hs => h.positive s (hperm.subset hs), fun s hs => h.counted s (hperm.subset hs),
    (hperm.map _).nodup_iff.2 h.apart, fun l hl => ?_, .inr ⟨s, List.mem_cons_self, rfl, rfl⟩⟩
  show l.number ≤ s.number
  rcases List.mem_cons.1 hl with rfl | hl
  · exact Nat.le_refl _
  · exact Nat.le_trans (h.passed l hl) (Nat.le_of_lt hnew)

theorem Orderly.committed (h : t.Orderly before) {front back : List (StagedSnapshot τ)}
    (succeeds : Bool) (hwaiting : t.waiting = front ++ s :: back) :
    (t.committed s succeeds (front ++ back)).Orderly before := by
  rw [SnapshotTraffic.committed, SnapshotFile.commit]
  split
  · exact h.dropped hwaiting
  · rename_i hnew
    cases succeeds with
    | true => exact h.written hwaiting (by omega)
    | false => exact h.dropped hwaiting

theorem Orderly.step (h : t.Orderly before) {t' : SnapshotTraffic τ} (hstep : Step t t') :
    t'.Orderly before := by
  cases hstep with
  | stage content => exact h.staged content
  | commit front back s succeeds hwaiting => exact h.committed succeeds hwaiting

theorem Reached.orderly {f : SnapshotFile τ} (h : Reached f t) : t.Orderly f.content := by
  induction h with
  | opened => exact orderly_opened f
  | step _ hstep ih => exact ih.step hstep

end Orderly

/-! ## The answers -/

section Answers

variable {f : SnapshotFile τ} {t : SnapshotTraffic τ} {s : StagedSnapshot τ}

/-- Taking a snapshot and committing another one do not notice each other. -/
theorem commit_stage (f : SnapshotFile τ) (content : τ) (s : StagedSnapshot τ) (succeeds : Bool) :
    (f.stage content).2.commit s succeeds
        = ((f.commit s succeeds).1, ((f.commit s succeeds).2.stage content).2) ∧
      ((f.commit s succeeds).2.stage content).1 = (f.stage content).1 := by
  simp only [SnapshotFile.stage, SnapshotFile.commit]
  by_cases hold : s.number ≤ f.written
  · simp [hold]
  · cases succeeds <;> simp [hold]

theorem Orderly.commit_of_supersedes {before : Option τ} (h : t.Orderly before)
    (hs : s ∈ t.waiting) (hold : t.Supersedes s) (succeeds : Bool) :
    t.file.commit s succeeds = (.ok false, t.file) := by
  rw [SnapshotFile.commit, if_pos ((h.supersedes_iff hs).1 hold)]

theorem Orderly.commit_of_not_supersedes {before : Option τ} (h : t.Orderly before)
    (hs : s ∈ t.waiting) (hnew : ¬ t.Supersedes s) :
    t.file.commit s false = (.error .notWritten, t.file) ∧
      t.file.commit s true
        = (.ok true, { t.file with written := s.number, content := some s.content }) := by
  rw [h.supersedes_iff hs] at hnew
  constructor
  · rw [SnapshotFile.commit, if_neg hnew, if_neg Bool.false_ne_true]
  · exact SnapshotFile.commit_of_newer (by omega)

end Answers

/-- Whatever calls are made to a file, it holds the newest snapshot that has landed. Of a snapshot
    that waits, the commit answers false and writes nothing exactly if a newer one has landed. If
    none has, a write that fails leaves the file as it was, and one that succeeds puts the snapshot
    there; so it does for any other snapshot also after a write has failed. Snapshots that are
    taken while another one is committed change nothing about that. -/
theorem file_holds_newest (f : SnapshotFile τ) {t : SnapshotTraffic τ} (h : Reached f t) :
    t.HoldsNewest f.content ∧
    (∀ s ∈ t.waiting, ∀ succeeds,
      ((t.file.commit s succeeds).1 = .ok false ↔ t.Supersedes s) ∧
      (t.Supersedes s → (t.file.commit s succeeds).2 = t.file)) ∧
    (∀ s ∈ t.waiting, ¬ t.Supersedes s →
      t.file.commit s false = (.error .notWritten, t.file) ∧
      (t.file.commit s true).1 = .ok true ∧
      (t.file.commit s true).2.content = some s.content ∧
      ∀ other ∈ t.waiting, ¬ t.Supersedes other →
        ((t.file.commit s false).2.commit other true).1 = .ok true ∧
        ((t.file.commit s false).2.commit other true).2.content = some other.content) ∧
    ∀ content s succeeds,
      (t.file.stage content).2.commit s succeeds
          = ((t.file.commit s succeeds).1, ((t.file.commit s succeeds).2.stage content).2) ∧
        ((t.file.commit s succeeds).2.stage content).1 = (t.file.stage content).1 := by
  have horderly := h.orderly
  -- A commit that answers anything but false finds nothing newer in the file.
  have hanswer : ∀ s ∈ t.waiting, ∀ succeeds,
      (t.file.commit s succeeds).1 = .ok false → t.Supersedes s := by
    intro s hs succeeds hfalse
    by_contra hnew
    obtain ⟨hfails, hlands⟩ := horderly.commit_of_not_supersedes hs hnew
    cases succeeds with
    | true => simp [hlands] at hfalse
    | false => simp [hfails] at hfalse
  refine ⟨horderly.holdsNewest, fun s hs succeeds => ⟨⟨hanswer s hs succeeds, fun hold => ?_⟩,
    fun hold => ?_⟩, fun s hs hnew => ?_,
    fun content s succeeds => commit_stage t.file content s succeeds⟩
  · rw [horderly.commit_of_supersedes hs hold succeeds]
  · rw [horderly.commit_of_supersedes hs hold succeeds]
  · obtain ⟨hfails, hlands⟩ := horderly.commit_of_not_supersedes hs hnew
    refine ⟨hfails, by rw [hlands], by rw [hlands], fun other hother hnew' => ?_⟩
    -- After the failure the file is the same, so the other commit finds what it would have found.
    obtain ⟨-, hlands'⟩ := horderly.commit_of_not_supersedes hother hnew'
    rw [hfails, hlands']
    exact ⟨rfl, rfl⟩

/-- Three snapshots of which the second has landed and the third could not be written. -/
def secondLanded : SnapshotTraffic String where
  file := ⟨3, 2, some "second", none⟩
  waiting := [⟨1, "first"⟩]
  landed := [⟨2, "second"⟩]

theorem reached_secondLanded : Reached (SnapshotFile.found (some "old")) secondLanded := by
  have htaken : Reached (SnapshotFile.found (some "old"))
      ⟨⟨3, 0, some "old", none⟩, [⟨3, "third"⟩, ⟨2, "second"⟩, ⟨1, "first"⟩], []⟩ :=
    ((Reached.opened.step (.stage "first")).step (.stage "second")).step (.stage "third")
  have hsecond : Reached (SnapshotFile.found (some "old"))
      ⟨⟨3, 2, some "second", none⟩, [⟨3, "third"⟩, ⟨1, "first"⟩], [⟨2, "second"⟩]⟩ :=
    htaken.step (.commit [⟨3, "third"⟩] [⟨1, "first"⟩] ⟨2, "second"⟩ true rfl)
  exact hsecond.step (.commit [] [⟨1, "first"⟩] ⟨3, "third"⟩ false rfl)

/-- The first one comes too late then: it is dropped, and the file keeps the second. -/
theorem file_holds_newest_secondLanded :
    Reached (SnapshotFile.found (some "old")) secondLanded ∧
    (secondLanded.file.commit ⟨1, "first"⟩ true).1 = .ok false ∧
    (secondLanded.file.commit ⟨1, "first"⟩ true).2.content = some "second" ∧
    secondLanded.HoldsNewest (some "old") := by
  obtain ⟨hnewest, hfalse, -⟩ :=
    file_holds_newest (SnapshotFile.found (some "old")) reached_secondLanded
  obtain ⟨hanswer, hkept⟩ := hfalse ⟨1, "first"⟩ List.mem_cons_self true
  have hold : secondLanded.Supersedes ⟨1, "first"⟩ :=
    ⟨⟨2, "second"⟩, List.mem_cons_self, Nat.lt_succ_self 1⟩
  exact ⟨reached_secondLanded, hanswer.2 hold, congrArg SnapshotFile.content (hkept hold), hnewest⟩

end SnapshotTraffic
end SiteDispatch
