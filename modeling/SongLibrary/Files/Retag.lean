import SongLibrary.Files.Cache
import SongLibrary.Tag.Output

/-!
# Writing the output of a preset into files

The update that a preset makes of each song is written into the file of the song, one after the
other. Songs without data are skipped. A file that cannot be written does not stop the others, and
one that has been written leaves the cache.
-/

namespace SongLibrary

/-- Why a song was not written. -/
inductive RetagError where
  | noData (fileName : String)
  | failed (fileName : String) (cause : SongFileError)
  deriving DecidableEq

/-- The text of an error. -/
def RetagError.message : RetagError → String
  | .noData fileName => "No metadata: " ++ fileName
  | .failed fileName cause => fileName ++ ": " ++ cause.message

/-- Files, cache and report while songs are written. -/
structure Retag where
  tree : FileTree
  cache : Option Cache
  written : Nat
  skipped : Nat
  errors : List RetagError

namespace Retag

/-- Writes one song. -/
def write (r : Retag) (preset : Preset) (policy : Policy) (index : VersionIndex) (song : Song) :
    Retag :=
  if song.hasData then
    match r.tree.updateTag song.path (preset.update policy song index) with
    | (tree, .ok ()) =>
      { r with tree, cache := r.cache.map (·.invalidate song.path), written := r.written + 1 }
    | (tree, .error cause) =>
      { r with tree, errors := r.errors ++ [.failed song.fileName cause] }
  else
    { r with skipped := r.skipped + 1, errors := r.errors ++ [.noData song.fileName] }

/-- Writes songs one after the other. -/
def run (tree : FileTree) (cache : Option Cache) (preset : Preset) (policy : Policy)
    (index : VersionIndex) (songs : List Song) : Retag :=
  songs.foldl (fun r song => r.write preset policy index song) ⟨tree, cache, 0, 0, []⟩

/-- The last song is written into what the others have left. -/
theorem run_concat (tree : FileTree) (cache : Option Cache) (preset : Preset) (policy : Policy)
    (index : VersionIndex) (songs : List Song) (song : Song) :
    run tree cache preset policy index (songs ++ [song]) =
      (run tree cache preset policy index songs).write preset policy index song := by
  simp only [run, List.foldl_append, List.foldl_cons, List.foldl_nil]

end Retag

end SongLibrary
