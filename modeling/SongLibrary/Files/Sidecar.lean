import SongLibrary.Files.Error
import SongLibrary.Files.Tree
import SongLibrary.Song.Basic

/-!
# Sidecar files

The data of a song is exported to a JSON file of its own. Under the export folder it lies where the
song lies under the root of the collection, or by its file name alone if the song lies elsewhere,
with the extension `json`. Songs without data are skipped, and a file that cannot be written does
not stop the others.
-/

namespace SongLibrary

/-- The path of the sidecar file of a song. -/
def Path.sidecar (song : Path) (root : Option Path) (folder : Path) : Path :=
  let relative := (root.bind song.relativeTo?).or (song.fileName?.map Path.mk)
  (folder ++ relative.getD ⟨""⟩).withExtension "json"

/-- A song that could not be exported. -/
structure ExportError where
  fileName : String
  cause : SongFileError
  deriving DecidableEq

/-- The text of an error. -/
def ExportError.message (e : ExportError) : String := e.fileName ++ ": " ++ e.cause.message

/-- Files and report while songs are exported. -/
structure Export where
  tree : FileTree
  exported : Nat
  skipped : Nat
  errors : List ExportError

namespace Export

/-- Writes a text to a path, in folders that are made for it. -/
def writeAt (t : FileTree) (p : Path) (text : String) : FileTree × Except SongFileError Unit :=
  let folder := p.parent?.getD ⟨""⟩
  match t.makeFolders folder with
  | (t, .error cause) => (t, .error (.cannotMakeFolder folder cause))
  | (t, .ok ()) =>
    match t.writeText p text with
    | .error cause => (t, .error (.cannotWrite p cause))
    | .ok t => (t, .ok ())

/-- Exports one song. -/
def write (x : Export) (root : Option Path) (folder : Path) (song : Song) : Export :=
  if song.hasData then
    match writeAt x.tree (song.path.sidecar root folder) (Json.object song.data).indented with
    | (tree, .ok ()) => { x with tree, exported := x.exported + 1 }
    | (tree, .error cause) => { x with tree, errors := x.errors ++ [⟨song.fileName, cause⟩] }
  else { x with skipped := x.skipped + 1 }

/-- Exports songs one after the other. -/
def run (tree : FileTree) (root : Option Path) (folder : Path) (songs : List Song) : Export :=
  songs.foldl (fun x song => x.write root folder song) ⟨tree, 0, 0, []⟩

/-- The last song is written into what the others have left. -/
theorem run_concat (tree : FileTree) (root : Option Path) (folder : Path) (songs : List Song)
    (song : Song) :
    run tree root folder (songs ++ [song]) =
      (run tree root folder songs).write root folder song := by
  simp only [run, List.foldl_append, List.foldl_cons, List.foldl_nil]

end Export

end SongLibrary
