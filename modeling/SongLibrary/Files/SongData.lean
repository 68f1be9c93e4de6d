import SongLibrary.Files.SongFile
import SongLibrary.Song.Embedded
import SongLibrary.Text.Search

/-!
# The data in song files

The data of a song is taken from comments. They are found by a library that knows many kinds of
audio and of tags, and what it finds is given by the caller. A file that the library cannot read is
read for the tag at its start alone, and so is one that is named as MPEG audio and in which the
library finds no comment.
-/

namespace SongLibrary

/-- A library that reads audio files. -/
structure AudioReader where
  /-- The texts of the comments of all tags of a file with an extension, `none` if the library
  cannot read the file. -/
  texts? (extension : Option String) (f : File) : Option (List String)

namespace File

/-- The data in the tag at the start of a file, whose comments are one text each. -/
def tagData? (f : File) : Except TagError (Option Embedded) := do
  return (← f.readTag).bind fun tag => Embedded.ofTexts? (tag.comments.map Comment.text)

/-- Whether an extension is that of MPEG audio. -/
def isMpeg (extension : Option String) : Bool :=
  extension.any (fun e => Text.equalsIgnoringAsciiCase e "mp3")

/-- The data in a file with an extension, `none` if its comments bear none. -/
def data? (f : File) (reader : AudioReader) (extension : Option String) :
    Except TagError (Option Embedded) :=
  match reader.texts? extension f with
  | none => f.tagData?
  | some texts =>
    if texts.isEmpty && isMpeg extension then f.tagData? else .ok (Embedded.ofTexts? texts)

end File

namespace FileTree

/-- The data embedded in the file at a path. -/
def embedded (t : FileTree) (reader : AudioReader) (p : Path) :
    Except SongFileError (Option Embedded) :=
  match t.file p with
  | .error .isFolder => .error (.cannotProbe p .isFolder)
  | .error cause => .error (.cannotOpen p cause)
  | .ok f => (f.data? reader p.extension?).mapError (.cannotExtract p)

/-- The song in the file at a path. -/
def song (t : FileTree) (reader : AudioReader) (p : Path) : Except SongFileError Song :=
  (t.embedded reader p).map (Song.ofEmbedded p)

end FileTree

end SongLibrary
