import SongLibrary.Files.Error
import SongLibrary.Files.Tree
import SongLibrary.Text.Lowercase

/-!
# Finding song files

The song files of a folder are the files in it, or at any depth below it, with the extension `mp3`
in any letter case. Their paths start with the path of the folder as it is written, and are listed
in the order of paths. They may be of any length: that a system cannot read a folder under a path of
more than `pathLimit` bytes, and skips it, is left out.
-/

namespace SongLibrary

/-- Whether a path has the extension of a song file. -/
def Path.isSong (p : Path) : Bool := p.extension?.any (fun e => Text.lowercase e == "mp3")

/-- The path that leads from a path by names. -/
def Path.descend (p : Path) (names : List String) : Path :=
  names.foldl (fun q name => q ++ (⟨name⟩ : Path)) p

namespace FileTree

/-- The names that lead from a location to each file below it. -/
def filesBelow (t : FileTree) (l : Location) : List (List String) :=
  t.entries.filterMap fun e =>
    match e.2 with
    | .file _ => if l.isPrefixOf e.1 then some (e.1.drop l.length) else none
    | .folder => none

/-- The song files of a folder, with those of its subfolders if these are asked for too. -/
def songFiles (t : FileTree) (folder : Path) (subfolders : Bool) :
    Except SongFileError (List Path) :=
  match t.locate folder with
  | .error _ => .error (.notAFolder folder)
  | .ok l =>
    if t.isFolder l then
      let names := (t.filesBelow l).filter (fun names => subfolders || names.length == 1)
      .ok (((names.map folder.descend).filter Path.isSong).mergeSort (fun p q => p.order q != .gt))
    else .error (.notAFolder folder)

end FileTree

end SongLibrary
