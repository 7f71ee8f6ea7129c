/-
  SiteDispatch.Snapshot.Directory

  A directory with one snapshot file. The path of the file may lead through an
  ordinary file; then nothing can be read or written there.
-/

import SiteDispatch.Snapshot.File

namespace SiteDispatch

/-- A directory and the snapshot file in it. -/
structure SnapshotDirectory where
  /-- Path of the snapshot file inside the directory. -/
  path : String
  /-- An empty file found in the directory. -/
  obstacle : Option String
  file : SnapshotFile String
deriving DecidableEq

namespace SnapshotDirectory

/-- A directory for the given snapshot path that holds nothing but an empty file,
    if one is given. -/
def found (path : String) (obstacle : Option String) : SnapshotDirectory :=
  ⟨path, if obstacle = some path then none else obstacle,
    SnapshotFile.found (if obstacle = some path then some "" else none)⟩

/-- Whether the path leads through an ordinary file. -/
def blocked (d : SnapshotDirectory) : Bool :=
  match d.obstacle with
  | some name => d.path.startsWith (name ++ "/")
  | none => false

/-- The state in the file, or `fresh`. A file that cannot be reached counts as not
    understood and stays where it is. -/
def load {σ : Type} (d : SnapshotDirectory) (read? : String → Option σ) (fresh : σ) :
    σ × SnapshotStatus × SnapshotDirectory :=
  if d.blocked then (fresh, .corrupt, d)
  else
    let (state, status, file) := d.file.load read? fresh
    (state, status, { d with file := file })

/-- Takes a snapshot without writing it. -/
def stage (d : SnapshotDirectory) (text : String) : StagedSnapshot String × SnapshotDirectory :=
  let (snapshot, file) := d.file.stage text
  (snapshot, { d with file := file })

/-- Writes a snapshot unless a later one is in the file already. -/
def commit (d : SnapshotDirectory) (snapshot : StagedSnapshot String) :
    Except SnapshotFile.WriteError Bool × SnapshotDirectory :=
  let (outcome, file) := d.file.commit snapshot (!d.blocked)
  (outcome, { d with file := file })

/-- Overwrites the file from outside. -/
def overwrite (d : SnapshotDirectory) (text : String) : SnapshotDirectory :=
  if d.blocked then d else { d with file := { d.file with content := some text } }

/-- Paths of all files, ascending. -/
def files (d : SnapshotDirectory) : List String :=
  (d.obstacle.toList ++ (d.file.content.map fun _ => d.path).toList
    ++ (d.file.aside.map fun _ => d.path ++ ".corrupt").toList).mergeSort (fun a b => a ≤ b)

end SnapshotDirectory
end SiteDispatch
