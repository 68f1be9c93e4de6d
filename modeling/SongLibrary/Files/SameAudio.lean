import SongLibrary.Files.SongFile

/-!
# Files with the same audio

Files are compared by a digest of their audio, so that the tag of a file plays no part. The digest
is given by the caller; two files count as the same if their digests are.

The positions of the given paths are gathered under the digests of their files. A group lists at
least two of them in order, and the groups are put into the order of their first positions, so that
the digests leave no trace in the report.
-/

namespace SongLibrary

/-- The groups of files with the same audio, and the files that cannot be read. -/
structure SameAudio where
  groups : List (List Path)
  errors : List PathError
  deriving DecidableEq

namespace SameAudio

variable {δ : Type} [DecidableEq δ]

/-- The digest of the audio of the file at a path. -/
def digestAt (digest : List UInt8 → δ) (t : FileTree) (p : Path) : Except SongFileError δ :=
  (t.audio p).map digest

/-- Positions by digest, with the position of one more path. -/
def gather (digest : List UInt8 → δ) (t : FileTree) (found : Assoc δ (List Nat))
    (entry : Path × Nat) : Assoc δ (List Nat) :=
  match digestAt digest t entry.1 with
  | .ok d => Assoc.put found d ((Assoc.find? found d).getD [] ++ [entry.2])
  | .error _ => found

/-- The positions of paths by the digests of their files. -/
def positions (digest : List UInt8 → δ) (t : FileTree) (paths : List Path) :
    Assoc δ (List Nat) :=
  paths.zipIdx.foldl (gather digest t) []

/-- The positions of the files that share their digests with others, each group in order, and the
groups in the order of their first positions. -/
def classes (digest : List UInt8 → δ) (t : FileTree) (paths : List Path) : List (List Nat) :=
  (((positions digest t paths).map Prod.snd).filter (fun group => 1 < group.length)).mergeSort
    (fun group other => group.headD 0 ≤ other.headD 0)

/-- Compares the files at some paths. -/
def of (digest : List UInt8 → δ) (t : FileTree) (paths : List Path) : SameAudio where
  groups := (classes digest t paths).map (·.filterMap (paths[·]?))
  errors := paths.filterMap fun p =>
    match digestAt digest t p with
    | .ok _ => none
    | .error e => some ⟨p, e⟩

/-- Whether the files at two paths have the same digest. -/
def same (digest : List UInt8 → δ) (t : FileTree) (p q : Path) : Except SongFileError Bool := do
  return (← digestAt digest t p) == (← digestAt digest t q)

end SameAudio

end SongLibrary
