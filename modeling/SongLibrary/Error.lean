/-!
# Errors

An error is a cause, and its text is worked out from the cause. `FileError` is what the file system
answers, and `Error` what goes wrong when lists are edited and presets and settings are stored.
-/

namespace SongLibrary

/-- Why the file system refuses. -/
inductive FileError where
  | noSuchFile
  | busy
  | fileExists
  | notFolder
  | isFolder
  /-- A folder would be moved into itself. -/
  | insideItself
  | nameTooLong
  | folderNotEmpty
  /-- A path holds a character that no path can hold. -/
  | nulInPath
  /-- The content of a file is not text. -/
  | notText
  deriving DecidableEq, Repr

/-- The text of a file error. -/
def FileError.message : FileError → String
  | .noSuchFile => "No such file or directory (os error 2)"
  | .busy => "Device or resource busy (os error 16)"
  | .fileExists => "File exists (os error 17)"
  | .notFolder => "Not a directory (os error 20)"
  | .isFolder => "Is a directory (os error 21)"
  | .insideItself => "Invalid argument (os error 22)"
  | .nameTooLong => "File name too long (os error 36)"
  | .folderNotEmpty => "Directory not empty (os error 39)"
  | .nulInPath => "file name contained an unexpected NUL byte"
  | .notText => "stream did not contain valid UTF-8"

/-- What goes wrong with levels, presets and settings. -/
inductive Error where
  /-- A text is not JSON of the expected form. -/
  | malformedJson
  /-- The settings file is not of the expected form. -/
  | malformedSettings
  | file (cause : FileError)
  /-- A preset that is to be loaded does not exist. -/
  | presetFileMissing (name : String)
  /-- A preset that is to be deleted does not exist. -/
  | presetMissing (name : String)
  | presetNameEmpty
  | presetNameInvalid (name : String)
  /-- No further sort level fits. -/
  | levelsFull (limit : Nat)
  /-- Only one logger can be installed. -/
  | loggerInstalled
  deriving DecidableEq, Repr

/-- The text of an error. -/
def Error.message : Error → String
  | .malformedJson => "JSON error"
  | .malformedSettings => "Configuration error: Failed to parse settings"
  | .file cause => "IO error: " ++ cause.message
  | .presetFileMissing name => "Not found: Preset file '" ++ name ++ ".json' not found"
  | .presetMissing name => "Not found: Preset '" ++ name ++ "' not found"
  | .presetNameEmpty => "Invalid input: Preset name is empty"
  | .presetNameInvalid name => "Invalid input: Invalid preset name: " ++ name
  | .levelsFull limit => "Invalid input: Maximum of " ++ toString limit ++ " sort levels reached"
  | .loggerInstalled =>
    "Configuration error: Failed to install logger: " ++
      "a global default trace dispatcher has already been set"

end SongLibrary
