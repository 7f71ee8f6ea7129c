/-
  SiteDispatch.Snapshot.File

  A file that holds the latest snapshot of a state. Snapshots are numbered when
  they are taken and written later, possibly in another order: one that comes
  after a newer one is dropped. A file that cannot be understood is moved aside
  when it is loaded.
-/

namespace SiteDispatch

/-- How a state was obtained. -/
inductive SnapshotStatus
  /-- There is no file; the state starts fresh. -/
  | missing
  | restored
  /-- The file could not be understood; the state starts fresh. -/
  | corrupt
deriving DecidableEq, Repr

/-- The name of a status. -/
def SnapshotStatus.name : SnapshotStatus → String
  | missing => "Missing"
  | restored => "Restored"
  | corrupt => "Corrupt"

/-- A snapshot that waits to be written. -/
structure StagedSnapshot (τ : Type) where
  number : Nat
  content : τ
deriving DecidableEq

/-- A snapshot file and the numbers of the snapshots taken for it. -/
structure SnapshotFile (τ : Type) where
  /-- Number of the latest snapshot taken. -/
  staged : Nat
  /-- Number of the snapshot in the file, 0 before the first. -/
  written : Nat
  content : Option τ
  /-- Content that could not be understood and was moved aside. -/
  aside : Option τ
deriving DecidableEq

namespace SnapshotFile

variable {τ σ : Type}

/-- A file found with the given content. -/
def found (content : Option τ) : SnapshotFile τ := ⟨0, 0, content, none⟩

/-- The state in the file, or `fresh`. -/
def load (f : SnapshotFile τ) (read? : τ → Option σ) (fresh : σ) :
    σ × SnapshotStatus × SnapshotFile τ :=
  match f.content with
  | none => (fresh, .missing, f)
  | some content =>
    match read? content with
    | some state => (state, .restored, f)
    | none => (fresh, .corrupt, { f with content := none, aside := some content })

/-- Takes a snapshot and numbers it after all earlier ones. -/
def stage (f : SnapshotFile τ) (content : τ) : StagedSnapshot τ × SnapshotFile τ :=
  (⟨f.staged + 1, content⟩, { f with staged := f.staged + 1 })

/-- Why a snapshot was not written. -/
inductive WriteError
  | notWritten
deriving DecidableEq, Repr

/-- Writes a snapshot unless a newer one is in the file. Answers whether it was
    written; `succeeds` says whether the medium takes a write. -/
def commit (f : SnapshotFile τ) (snapshot : StagedSnapshot τ) (succeeds : Bool) :
    Except WriteError Bool × SnapshotFile τ :=
  if snapshot.number ≤ f.written then (.ok false, f)
  else if succeeds then
    (.ok true, { f with written := snapshot.number, content := some snapshot.content })
  else (.error .notWritten, f)

/-- Takes a snapshot and writes it at once. -/
def save (f : SnapshotFile τ) (content : τ) (succeeds : Bool) : SnapshotFile τ :=
  let (snapshot, f) := f.stage content
  (f.commit snapshot succeeds).2

/-- The same file as seen after a restart: numbering begins anew. -/
def reopened (f : SnapshotFile τ) : SnapshotFile τ := { f with staged := 0, written := 0 }

end SnapshotFile
end SiteDispatch
