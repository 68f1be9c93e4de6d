import SongLibrary.Files.ClosingBlock
import SongLibrary.Files.Error
import SongLibrary.Files.Tree
import SongLibrary.Tag.Frame

/-!
# The tags of song files

Reading and writing the tag of a file in a tree. A file that has been written has a tag even if that
is empty. A file without a tag whose content starts with one has that, and one that breaks the rules
of the format makes every use of the tag fail.

What follows the tag is kept when a tag is written, but for the zeros right behind the tag, which
count as part of it. A file of less than twelve bytes is not searched for a tag to replace: all that
it holds is kept behind the tag that is written.

The audio of a file is what follows its tag without the blocks at its end that close a file.
-/

namespace SongLibrary

namespace File

/-- The header of a tag that the content of a file without another tag starts with. -/
def header? (f : File) : Except TagError (Option TagHeader) :=
  if f.tag.isSome then .ok none else TagHeader.ofBytes? f.content

/-- The tag of a file, if it has one. -/
def readTag (f : File) : Except TagError (Option Tag) :=
  match f.tag with
  | some tag => .ok (some tag)
  | none => Tag.ofBytes? f.content

/-- What follows the tag of a file, or all that it holds if it has none. -/
def afterTag (f : File) : Except TagError (List UInt8) := do
  match f.tag, ← f.header? with
  | some _, _ => return f.content.dropWhile (· == 0)
  | none, some h => return (f.content.drop (TagHeader.length + h.size)).dropWhile (· == 0)
  | none, none => return f.content

/-- The bytes that a file takes up. -/
def size (f : File) : Nat := (f.tag.elim 0 Tag.size) + f.content.length

/-- The least size of a file that is searched for a tag to replace. -/
def leastSearched : Nat := 12

/-- What stands behind a tag that is written into a file. -/
def behindNewTag (f : File) : Except TagError (List UInt8) :=
  if f.size < leastSearched then .ok f.bytes else f.afterTag

/-- The audio of a file. -/
def audio (f : File) : Except TagError (List UInt8) := do
  let content ← f.afterTag
  return content.take (content.length - ClosingBlock.size content)

end File

namespace FileTree

/-- The tag of the file at a path. -/
def readTag (t : FileTree) (p : Path) : Except TagError (Option Tag) :=
  match t.file p with
  | .error cause => .error (.file cause)
  | .ok f => f.readTag

/-- Puts a tag into a file, the one at a path, changed now. -/
def putTag (t : FileTree) (p : Path) (f : File) (tag : Tag) : Except TagError FileTree := do
  let file : File := ⟨← f.behindNewTag, some tag.stored, .clock t.clock⟩
  match t.writeFile p file with
  | .error cause => .error (.file cause)
  | .ok t => .ok t.tick

/-- Puts a tag into the file at a path in the place of its tag. -/
def replaceTag (t : FileTree) (p : Path) (tag : Tag) : Except TagError FileTree :=
  match t.file p with
  | .error cause => .error (.file cause)
  | .ok f => t.putTag p f tag

/-- Changes the tag of the file at a path. A change that fails leaves the tree. -/
def updateTag (t : FileTree) (p : Path) (u : TagUpdate) : FileTree × Except SongFileError Unit :=
  match t.file p with
  | .error cause => (t, .error (.cannotUpdate p (.file cause)))
  | .ok f =>
    match f.readTag with
    | .error cause => (t, .error (.cannotUpdate p cause))
    | .ok tag =>
      match t.putTag p f ((tag.getD .empty).update u) with
      | .error cause => (t, .error (.cannotUpdate p cause))
      | .ok t => (t, .ok ())

/-- The audio of the file at a path. -/
def audio (t : FileTree) (p : Path) : Except SongFileError (List UInt8) :=
  match t.file p with
  | .error cause => .error (.cannotRead p cause)
  | .ok f => f.audio.mapError (.cannotStrip p)

end FileTree

end SongLibrary
