import SongLibrary.Files.Cache
import SongLibrary.Text.Lowercase
import SongLibrary.Text.Search

/-!
# Renaming song files

A file gets another name in its folder. The name is taken without the blanks around it, and with
`.mp3` behind it unless it ends so in some letter case. It may neither be empty, nor hold a
separator, nor be the name the file has, nor that of another entry unless it may be overwritten. The
path that the file leaves is dropped from the cache.
-/

namespace SongLibrary

/-- What came of renaming a song file: its new path or the error, and the files and the cache
afterwards. -/
structure Renamed where
  outcome : Except SongFileError Path
  tree : FileTree
  cache : Option Cache

/-- The name of a song file made from a name that may lack the extension. -/
def songFileName (name : String) : String :=
  if Text.endsWith (Text.lowercase name) ".mp3" then name else name ++ ".mp3"

/-- Renames the file at a path. What fails leaves the files and the cache. -/
def FileTree.renameSong (t : FileTree) (cache : Option Cache) (p : Path) (name : String)
    (overwrite : Bool) : Renamed :=
  let name := Text.trim name
  if name.isEmpty then ⟨.error .nameEmpty, t, cache⟩
  else if name.toList.any (fun c => c == '/' || c == '\\') then
    ⟨.error (.nameHasSeparator name), t, cache⟩
  else if name = p.fileName?.getD "" then ⟨.error (.nameUnchanged name), t, cache⟩
  else
    let fileName := songFileName name
    let target := p.withFileName fileName
    if t.exists? target && !overwrite then ⟨.error (.nameTaken fileName), t, cache⟩
    else
      match t.rename p target with
      | .error cause => ⟨.error (.cannotRename p fileName cause), t, cache⟩
      | .ok t => ⟨.ok target, t, cache.map (·.invalidate p)⟩

end SongLibrary
