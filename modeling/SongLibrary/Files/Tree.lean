import SongLibrary.Assoc
import SongLibrary.Error
import SongLibrary.Path
import SongLibrary.Tag.Basic
import SongLibrary.Tag.Header

/-!
# Trees of files

A tree holds what lies below the root. An entry is found at its location, the names that lead to it;
the root itself has the empty location, is always there and is its own parent. There are no links,
hard or symbolic: an entry has one location, and a location has one entry.

An absolute path is followed from the root, and any other path from the starting folder. Where that
is not there, such a path leads nowhere.

A file has its content, apart from its tag, and the moment of its last change. Moments are set by
hand or come from the tree's own clock, which goes on with every change, so that two changes by the
clock never have the same moment.

Paths are followed name by name. A name that is followed by anything, even an idle segment, has to
be that of a folder.
-/

namespace SongLibrary

/-- A moment of change. -/
inductive Moment where
  /-- Set by hand, in seconds. -/
  | given (seconds : Int)
  /-- A reading of the clock. -/
  | clock (reading : Nat)
  deriving DecidableEq, Repr

/-- A file. The content is what is left when the tag is taken away. -/
structure File where
  content : List UInt8
  tag : Option Tag
  modified : Moment
  deriving DecidableEq

/-- The bytes of a file, but for those of the frames of its tag. -/
def File.bytes (f : File) : List UInt8 :=
  (if f.tag.isSome then TagHeader.ofEmptyTag else []) ++ f.content

/-- What lies at a location. -/
inductive Entry where
  | folder
  | file (file : File)
  deriving DecidableEq

/-- The names that lead to an entry. -/
abbrev Location := List String

/-- What lies below the root. -/
structure FileTree where
  entries : Assoc Location Entry
  clock : Nat
  /-- The folder that relative paths start from. -/
  start : Location
  deriving DecidableEq

namespace FileTree

/-- The tree without entries, started at the root. -/
def empty : FileTree := ⟨[], 0, []⟩

/-- The entry at a location. -/
def entry? (t : FileTree) (l : Location) : Option Entry :=
  if l = [] then some .folder else Assoc.find? t.entries l

/-- Whether a folder lies at a location. -/
def isFolder (t : FileTree) (l : Location) : Bool := t.entry? l == some .folder

/-- The names of the entries of a folder. -/
def namesIn (t : FileTree) (l : Location) : List String :=
  (Assoc.keys t.entries).filterMap fun l' =>
    match l'.getLast? with
    | some name => if l'.dropLast = l then some name else none
    | none => none

/-! ## Following paths -/

/-- Bytes that a name may have at most. -/
def nameLimit : Nat := 255

/-- Bytes that a path may have at most. -/
def pathLimit : Nat := 4095

/-- Follows one segment from a location. -/
def step (t : FileTree) (l : Location) (segment : String) : Except FileError Location :=
  if !t.isFolder l then .error .notFolder
  else if Path.isIdle segment then .ok l
  else if segment = ".." then .ok l.dropLast
  else if nameLimit < segment.utf8ByteSize then .error .nameTooLong
  else if (t.entry? (l ++ [segment])).isSome then .ok (l ++ [segment])
  else .error .noSuchFile

/-- Whether a folder lies at a location, and at each location on the way there. -/
def isReachable (t : FileTree) (l : Location) : Bool :=
  (List.range (l.length + 1)).all fun n => t.isFolder (l.take n)

/-- Follows segments from a folder, which may not be there. -/
def follow (t : FileTree) (origin : Location) (segments : List String) :
    Except FileError Location :=
  if t.isReachable origin then segments.foldlM t.step origin else .error .noSuchFile

/-- The folder that a path is followed from. -/
def origin (t : FileTree) (p : Path) : Location := if p.isAbsolute then [] else t.start

/-- Whether a path holds the character that no path can hold. -/
def holdsNul (p : Path) : Bool := p.text.toList.contains '\x00'

/-- Whether a path can be followed at all, and its segments. -/
def segmentsOf (p : Path) : Except FileError (List String) :=
  if holdsNul p then .error .nulInPath
  else if p.text.isEmpty then .error .noSuchFile
  else if pathLimit < p.text.utf8ByteSize then .error .nameTooLong
  else .ok p.segments

/-- The location of an existing entry. -/
def locate (t : FileTree) (p : Path) : Except FileError Location := do
  t.follow (t.origin p) (← segmentsOf p)

/-- Whether an entry exists at a path. -/
def exists? (t : FileTree) (p : Path) : Bool := (t.locate p).isOk

/-- Whether a folder exists at a path. -/
def isFolderAt (t : FileTree) (p : Path) : Bool :=
  match t.locate p with
  | .ok l => t.isFolder l
  | .error _ => false

/-- The file at a path. -/
def file (t : FileTree) (p : Path) : Except FileError File := do
  let l ← t.locate p
  match t.entry? l with
  | some (.file f) => .ok f
  | some .folder => .error .isFolder
  | none => .error .noSuchFile

/-- The text of the file at a path. -/
def text (t : FileTree) (p : Path) : Except FileError String := do
  let f ← t.file p
  match Text.ofBytes? f.bytes with
  | some text => .ok text
  | none => .error .notText

/-- Whether a path ends with a separator, as only that of a folder may. -/
def isOpenEnded (p : Path) : Bool := p.text.endsWith "/"

/-- The folder that a path leads into, and the last segment, which nothing need lie at. The root has
no last segment. -/
def locateLast (t : FileTree) (p : Path) : Except FileError (Location × String) := do
  match (← segmentsOf p).reverse.dropWhile String.isEmpty with
  | [] => .error .busy
  | last :: outer =>
    let l ← t.follow (t.origin p) outer.reverse
    if t.isFolder l then .ok (l, last) else .error .notFolder

/-- The location of a name in a folder, unless the name is too long. -/
def nameIn (l : Location) (name : String) : Except FileError Location :=
  if nameLimit < name.utf8ByteSize then .error .nameTooLong else .ok (l ++ [name])

/-- The location at which a path that leads to nothing yet names a new entry. -/
def locateNew (t : FileTree) (p : Path) : Except FileError Location := do
  let (l, last) ← t.locateLast p
  if last = "." ∨ last = ".." then .error .noSuchFile else nameIn l last

/-! ## Changes -/

/-- The tree with an entry at a location. -/
def put (t : FileTree) (l : Location) (e : Entry) : FileTree :=
  { t with entries := Assoc.put t.entries l e }

/-- The tree with its clock one further. -/
def tick (t : FileTree) : FileTree := { t with clock := t.clock + 1 }

/-- Makes a folder. -/
def makeFolder (t : FileTree) (p : Path) : Except FileError FileTree :=
  match t.locate p with
  | .ok _ => .error .fileExists
  | .error .noSuchFile => do return t.put (← t.locateNew p) .folder
  | .error cause => .error cause

/-- Makes the first of some paths a folder. Where what it lies in does not exist, that is made
first, from the paths that follow. The empty path needs no folder. -/
def makeFoldersFrom (t : FileTree) : List Path → FileTree × Except FileError Unit
  | [] => (t, .error .noSuchFile)
  | p :: outer =>
    if p.text.isEmpty then (t, .ok ())
    else
      match t.makeFolder p with
      | .ok t => (t, .ok ())
      | .error .noSuchFile =>
        match makeFoldersFrom t outer with
        | (t, .error cause) => (t, .error cause)
        | (t, .ok ()) =>
          match t.makeFolder p with
          | .ok t => (t, .ok ())
          | .error cause => (t, if t.isFolderAt p then .ok () else .error cause)
      | .error cause => (t, if t.isFolderAt p then .ok () else .error cause)

/-- A path and the paths it lies in, from the inside out, at most `n` of them. -/
def ancestors : Nat → Path → List Path
  | 0, _ => []
  | n + 1, p =>
    match p.parent? with
    | some outer => p :: ancestors n outer
    | none => [p]

/-- Makes a folder and those it lies in, unless it is there. Folders made before an error stay. -/
def makeFolders (t : FileTree) (p : Path) : FileTree × Except FileError Unit :=
  t.makeFoldersFrom (ancestors (p.components.length + 1) p)

/-- Puts a file at a path whose folder exists, in the place of any file there. -/
def writeFile (t : FileTree) (p : Path) (f : File) : Except FileError FileTree :=
  match t.locate p with
  | .ok l => if t.isFolder l then .error .isFolder else .ok (t.put l (.file f))
  | .error .noSuchFile => do
    let l ← t.locateNew p
    if isOpenEnded p then .error .isFolder else return t.put l (.file f)
  | .error cause => .error cause

/-- Writes a file without a tag, changed now. -/
def writeContent (t : FileTree) (p : Path) (content : List UInt8) : Except FileError FileTree :=
  (t.writeFile p ⟨content, none, .clock t.clock⟩).map tick

/-- Writes a text, changed now. -/
def writeText (t : FileTree) (p : Path) (text : String) : Except FileError FileTree :=
  t.writeContent p (Text.bytes text)

/-- Removes the file at a path. -/
def removeFile (t : FileTree) (p : Path) : Except FileError FileTree := do
  let l ← t.locate p
  if t.isFolder l then .error .isFolder else return { t with entries := Assoc.erase t.entries l }

/-- The entries with those at or below one location put at or below another. -/
def moveEntries (entries : Assoc Location Entry) (source target : Location) :
    Assoc Location Entry :=
  (Assoc.erase entries target).map fun e =>
    if source.isPrefixOf e.1 then (target ++ e.1.drop source.length, e.2) else e

/-- The location that a path names, whether anything lies there or not, for taking an entry away
from it or putting one there. -/
def locateName (t : FileTree) (p : Path) : Except FileError Location := do
  let (l, last) ← t.locateLast p
  if last = "." ∨ last = ".." then .error .busy else nameIn l last

/-- The tree after an entry is moved. If the starting folder lies in a folder that is moved, it is
moved along; an empty starting folder that another folder takes the place of counts as that one. -/
def moved (t : FileTree) (e : Entry) (source target : Location) : FileTree :=
  { t with
    entries := moveEntries t.entries source target
    start :=
      if e = .folder ∧ source.isPrefixOf t.start then target ++ t.start.drop source.length
      else t.start }

/-- Moves an entry to another name. A file takes the place of a file, and a folder that of an empty
folder. -/
def rename (t : FileTree) (p q : Path) : Except FileError FileTree := do
  if holdsNul p ∨ holdsNul q then .error .nulInPath
  let source ← t.locateName p
  match t.entry? source with
  | none => .error .noSuchFile
  | some e =>
    let target ← t.locateName q
    if e ≠ .folder ∧ (isOpenEnded p ∨ isOpenEnded q) then .error .notFolder
    else if source = target then .ok t
    else if source.isPrefixOf target then .error .insideItself
    else
      match e, t.entry? target with
      | .folder, some (.file _) => .error .notFolder
      | .file _, some .folder => .error .isFolder
      | .folder, some .folder =>
        if (t.namesIn target).isEmpty then .ok (t.moved e source target)
        else .error .folderNotEmpty
      | _, _ => .ok (t.moved e source target)

end FileTree

end SongLibrary
