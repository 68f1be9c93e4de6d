import SongLibrary.Path
import SongLibrary.Tag.Error

/-!
# Errors on song files

What goes wrong when the files of songs are read, written, renamed, exported and compared. The text
of an error names the path it is about, then the cause.
-/

namespace SongLibrary

/-- What goes wrong with a song file. -/
inductive SongFileError where
  | cannotStat (p : Path) (cause : FileError)
  | cannotOpen (p : Path) (cause : FileError)
  | cannotProbe (p : Path) (cause : FileError)
  /-- The tag cannot be read for its data. -/
  | cannotExtract (p : Path) (cause : TagError)
  /-- The tag cannot be read to be changed. -/
  | cannotUpdate (p : Path) (cause : TagError)
  | cannotRead (p : Path) (cause : FileError)
  | cannotStrip (p : Path) (cause : TagError)
  | cannotMakeFolder (p : Path) (cause : FileError)
  | cannotWrite (p : Path) (cause : FileError)
  | notAFolder (p : Path)
  | nameEmpty
  | nameHasSeparator (name : String)
  | nameUnchanged (name : String)
  | nameTaken (name : String)
  | cannotRename (p : Path) (name : String) (cause : FileError)
  /-- A loader given to a cache gave up. -/
  | loaderFailed
  deriving DecidableEq

/-- The text of an error on a song file. -/
def SongFileError.message : SongFileError → String
  | .cannotStat p cause => "Failed to stat " ++ p.text ++ ": " ++ cause.message
  | .cannotOpen p cause => "Failed to open " ++ p.text ++ ": " ++ cause.message
  | .cannotProbe p cause => "Failed to probe " ++ p.text ++ ": " ++ cause.message
  | .cannotExtract p cause => "Failed to read ID3 tag of " ++ p.text ++ ": " ++ cause.message
  | .cannotUpdate p cause => "Failed to read tag of " ++ p.text ++ ": " ++ cause.message
  | .cannotRead p cause => "Failed to read " ++ p.text ++ ": " ++ cause.message
  | .cannotStrip p cause => "Failed to strip ID3v2 tag of " ++ p.text ++ ": " ++ cause.message
  | .cannotMakeFolder p cause => "Failed to create " ++ p.text ++ ": " ++ cause.message
  | .cannotWrite p cause => "Failed to write " ++ p.text ++ ": " ++ cause.message
  | .notAFolder p => "Not a folder: " ++ p.text
  | .nameEmpty => "New file name is empty"
  | .nameHasSeparator name => "File name cannot contain a path separator: " ++ name
  | .nameUnchanged name => "File name is unchanged: " ++ name
  | .nameTaken name => "A file named " ++ name ++ " already exists"
  | .cannotRename p name cause =>
    "Failed to rename " ++ p.text ++ " to " ++ name ++ ": " ++ cause.message
  | .loaderFailed => "loader failed"

/-- An error at one of several paths. -/
structure PathError where
  path : Path
  cause : SongFileError
  deriving DecidableEq

/-- The text of an error, which starts with the path. -/
def PathError.message (e : PathError) : String := e.path.text ++ ": " ++ e.cause.message

end SongLibrary
