import SongLibrary.Files.SongData

/-!
# A cache of embedded data

The cache keeps what was found in files, by path, together with a stamp of each file: the size of
the whole file, its tag included, and the moment of its last change. An entry counts only while the
file still has its stamp.

At most `capacity` entries are kept. A queue holds their keys from the oldest to the youngest; a
new entry is the youngest, and the oldest ones go when there are too many. An entry that is loaded
again keeps its age.
-/

namespace SongLibrary

/-- What tells whether an entry of a tree has changed: of a file, its size with the tag and the
moment of its last change. A folder never changes. -/
inductive Stamp where
  | folder
  | file (size : Nat) (modified : Moment)
  deriving DecidableEq

/-- The stamp of an entry of a tree. -/
def Entry.stamp : Entry → Stamp
  | .folder => .folder
  | .file f => .file f.size f.modified

/-- The stamp of what lies at a path. -/
def FileTree.stamp (t : FileTree) (p : Path) : Except SongFileError Stamp :=
  match t.locate p with
  | .error cause => .error (.cannotStat p cause)
  | .ok l => .ok ((t.entry? l).getD .folder).stamp

/-- What is kept for a path. -/
structure CacheEntry where
  stamp : Stamp
  value : Option Embedded

/-- Embedded data by path. Paths with the same components have the same key. -/
structure Cache where
  capacity : Nat
  entries : Assoc (List Path.Component) CacheEntry
  queue : List (List Path.Component)

namespace Cache

/-- The cache without entries. At least one entry is always kept. -/
def empty (capacity : Nat) : Cache := ⟨max capacity 1, [], []⟩

/-- How many entries there are. -/
def size (c : Cache) : Nat := c.entries.length

/-- What is kept for a path, while its file has this stamp. -/
def find? (c : Cache) (p : Path) (stamp : Stamp) : Option (Option Embedded) :=
  match Assoc.find? c.entries p.components with
  | some e => if e.stamp = stamp then some e.value else none
  | none => none

/-- Entries and their queue without the oldest ones, as long as there are too many. -/
def evict (capacity : Nat) (entries : Assoc (List Path.Component) CacheEntry) :
    List (List Path.Component) →
      Assoc (List Path.Component) CacheEntry × List (List Path.Component)
  | [] => (entries, [])
  | oldest :: queue =>
    if capacity < entries.length then evict capacity (Assoc.erase entries oldest) queue
    else (entries, oldest :: queue)

/-- The cache with an entry for a path. -/
def insert (c : Cache) (p : Path) (stamp : Stamp) (value : Option Embedded) : Cache :=
  let key := p.components
  let queue := if (Assoc.find? c.entries key).isSome then c.queue else c.queue ++ [key]
  let (entries, queue) := evict c.capacity (Assoc.put c.entries key ⟨stamp, value⟩) queue
  { c with entries, queue }

/-- The cache without an entry for a path. -/
def invalidate (c : Cache) (p : Path) : Cache :=
  let key := p.components
  if (Assoc.find? c.entries key).isSome then
    { c with entries := Assoc.erase c.entries key, queue := c.queue.filter (· ≠ key) }
  else c

/-- The cache without any entry. -/
def clear (c : Cache) : Cache := { c with entries := [], queue := [] }

/-- What a look-up in the cache came to: the value or the error, whether the loader was asked, and
the cache afterwards. -/
structure Lookup where
  outcome : Except SongFileError (Option Embedded)
  loaded : Bool
  cache : Cache

/-- Looks up a path whose file has, or lacks, a stamp, and asks the loader if the cache does not
know. What is loaded is kept; after an error the cache is as before. -/
def getOrLoad (c : Cache) (stamp : Except SongFileError Stamp) (p : Path)
    (load : Path → Except SongFileError (Option Embedded)) : Lookup :=
  match stamp with
  | .error e => ⟨.error e, false, c⟩
  | .ok stamp =>
    match c.find? p stamp with
    | some value => ⟨.ok value, false, c⟩
    | none =>
      match load p with
      | .error e => ⟨.error e, true, c⟩
      | .ok value => ⟨.ok value, true, c.insert p stamp value⟩

end Cache

end SongLibrary
