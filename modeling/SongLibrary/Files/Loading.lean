import SongLibrary.Files.Cache

/-!
# Loading songs

Every path gives a song, in the order of the paths. A file that cannot be read gives a song without
data, and an error. What is loaded goes through a cache.
-/

namespace SongLibrary

/-- What came of loading a path. -/
structure Loaded where
  song : Song
  error : Option SongFileError

/-- A notice that another path is done. -/
structure Progress where
  current : Nat
  total : Nat
  fileName : String

/-- What came of loading some paths. -/
structure LoadReport where
  songs : List Song
  /-- The errors in the order of the paths. -/
  errors : List PathError
  progress : List Progress

/-- How many paths could not be loaded. -/
def LoadReport.failed (r : LoadReport) : Nat := r.errors.length

namespace FileTree

/-- Loads a path. -/
def load (t : FileTree) (reader : AudioReader) (cache : Cache) (p : Path) : Loaded × Cache :=
  let result := cache.getOrLoad (t.stamp p) p (t.embedded reader)
  match result.outcome with
  | .ok data => (⟨.ofEmbedded p data, none⟩, result.cache)
  | .error e => (⟨.ofEmbedded p none, some e⟩, result.cache)

/-- Loads paths one after the other. -/
def loadEach (t : FileTree) (reader : AudioReader) (cache : Cache) :
    List Path → List Loaded × Cache
  | [] => ([], cache)
  | p :: rest =>
    let (loaded, cache) := t.load reader cache p
    let (others, cache) := t.loadEach reader cache rest
    (loaded :: others, cache)

/-- Loads paths and reports on them. -/
def loadAll (t : FileTree) (reader : AudioReader) (cache : Cache) (paths : List Path) :
    LoadReport × Cache :=
  let (loaded, cache) := t.loadEach reader cache paths
  let total := paths.length
  ({ songs := loaded.map Loaded.song
     errors := (paths.zip loaded).filterMap (fun (p, l) => l.error.map (⟨p, ·⟩))
     progress := paths.mapIdx (fun i p => ⟨i + 1, total, p.fileName?.getD "unknown"⟩) }, cache)

end FileTree

end SongLibrary
