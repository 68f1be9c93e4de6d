import SongLibrary.Song.Basic
import SongLibrary.Song.VersionText

/-!
# The latest versions of songs

An index groups the songs of a collection by identity. A group knows the version texts of its songs
in order and the latest of them: the first whose components no other exceeds. Components are
compared one by one, and a list comes before its continuations.

A song whose identity is not in the index counts as the latest, so that nothing outside a
collection is hidden.
-/

namespace SongLibrary

/-- The versions of one identity, with the components of the latest kept at hand. -/
structure VersionGroup where
  versions : List String
  latest : String
  latestComponents : List Nat
  deriving DecidableEq

namespace VersionGroup

/-- The group of a single version. -/
def single (version : String) : VersionGroup :=
  ⟨[version], version, VersionText.components version⟩

/-- The group with one more version, which becomes the latest if it exceeds the latest so far. -/
def push (g : VersionGroup) (version : String) : VersionGroup :=
  let components := VersionText.components version
  if g.latestComponents < components then ⟨g.versions ++ [version], version, components⟩
  else { g with versions := g.versions ++ [version] }

end VersionGroup

/-- The versions of a collection by identity. -/
structure VersionIndex where
  groups : Assoc Identity VersionGroup

namespace VersionIndex

/-- The index of no songs. -/
def empty : VersionIndex := ⟨[]⟩

/-- The versions of one identity. -/
def group? (index : VersionIndex) (identity : Identity) : Option VersionGroup :=
  Assoc.find? index.groups identity

/-- The index with one more song. -/
def insert (index : VersionIndex) (song : Song) : VersionIndex :=
  let group :=
    match index.group? song.identity with
    | some g => g.push song.rawVersion
    | none => .single song.rawVersion
  ⟨Assoc.put index.groups song.identity group⟩

/-- The index of a collection. -/
def ofSongs (songs : List Song) : VersionIndex := songs.foldl insert empty

/-- The latest version of an identity. -/
def latest? (index : VersionIndex) (identity : Identity) : Option String :=
  (index.group? identity).map VersionGroup.latest

/-- The versions of an identity in order, none for an unknown one. -/
def versions (index : VersionIndex) (identity : Identity) : List String :=
  ((index.group? identity).map VersionGroup.versions).getD []

/-- Whether a song has the latest version of its identity. -/
def isLatest (index : VersionIndex) (song : Song) : Bool :=
  (index.latest? song.identity).all (· == song.rawVersion)

/-- How many identities there are. -/
def size (index : VersionIndex) : Nat := index.groups.length

/-- Whether there are no songs. -/
def isEmpty (index : VersionIndex) : Bool := index.groups.isEmpty

end VersionIndex

end SongLibrary
