import SongLibrary.Error

/-!
# Errors on tags

Why the tag of a file cannot be used: the file cannot be read, or the bytes that stand for the tag
break the rules of its format.
-/

namespace SongLibrary

/-- Why the tag of a file cannot be used. -/
inductive TagError where
  | file (cause : FileError)
  | unsupportedVersion (major revision : Nat)
  /-- The header has flags without a meaning. -/
  | unknownFlags
  /-- The frames are compressed as only tags of version 2 can be. -/
  | compressed
  /-- The content ends inside the extension of the header. -/
  | extensionMissing
  /-- The extension of the header claims less than its own size. -/
  | extensionTooSmall
  /-- A frame has flags without a meaning. -/
  | unknownFrameFlags
  | frameEncrypted
  /-- A frame belongs to a group of frames. -/
  | frameGrouped
  /-- A frame ends before its text begins. -/
  | frameTooShort
  /-- The text of a frame is in an unknown encoding. -/
  | unknownEncoding
  | descriptionUnclosed
  /-- The name or the text of a frame is no text. -/
  | notText
  /-- The text of a frame is none of units of sixteen bits. -/
  | notUnits
  deriving DecidableEq, Repr

/-- The text of a tag error. A cause that lies in the file is named twice. -/
def TagError.message : TagError → String
  | .file cause => "IO: " ++ cause.message ++ ": " ++ cause.message
  | .unsupportedVersion major revision =>
    "UnsupportedFeature: Unsupported id3 tag version: v2." ++ toString major ++ "."
      ++ toString revision
  | .unknownFlags => "Parsing: unknown tag header flags are set"
  | .compressed => "UnsupportedFeature: id3v2.2 compression is not supported"
  | .extensionMissing => "IO: failed to fill whole buffer: failed to fill whole buffer"
  | .extensionTooSmall => "Parsing: Extended header requires has a minimum size of 6"
  | .unknownFrameFlags => "Parsing: unknown frame header flags are set"
  | .frameEncrypted => "UnsupportedFeature: encryption is not supported"
  | .frameGrouped => "UnsupportedFeature: grouping identity is not supported"
  | .frameTooShort => "Parsing: insufficient data to decode bytes"
  | .unknownEncoding => "Parsing: unknown encoding"
  | .descriptionUnclosed => "Parsing: delimiter not found"
  | .notText => "StringDecoding: data is not valid utf-8"
  | .notUnits => "StringDecoding: data is not valid utf16-be"

end SongLibrary
