import SongLibrary.Json.Printer
import SongLibrary.Number.Numeric
import SongLibrary.Path
import SongLibrary.Song.Field
import SongLibrary.Text.Blank

/-!
# Songs

A song is a path and the data embedded in the file there: a JSON object, and the text that precedes
it in the comment. Every field has a text. A missing title is the file name without its extension,
a missing version is zero, and anything else that is missing is empty.

Songs with the same title, artist and cover artist are versions of each other. Their identity is the
text of the three with bars between them.
-/

namespace SongLibrary

/-- A song: where it lies, its embedded data and the text before the data. -/
structure Song where
  path : Path
  data : Json.Members
  lead : String
  deriving Inhabited

/-- What the versions of one song have in common. -/
structure Identity where
  text : String
  deriving DecidableEq

/-- The identity of a title, an artist and a cover artist. -/
def Identity.of (title artist coverArtist : String) : Identity :=
  ⟨title ++ "|" ++ artist ++ "|" ++ coverArtist⟩

/-- The text that shows a value: nothing for null, a text itself, and JSON for the rest. -/
def Json.display : Json → String
  | .null => ""
  | .string value => value
  | value => value.compact

/-- Versions have all their places and no needless point; of two nearest decimals the larger one
is written. -/
def versionStyle : NumberStyle := ⟨.up, none, false⟩

/-- The text of a version number: whole numbers of up to fifteen digits as integers. -/
def writeVersion (version : Double) : String :=
  match version.toInt? with
  | some n =>
    String.ofList (if n.natAbs < 1000000000000000 then writeInt n else version.write versionStyle)
  | none => String.ofList (version.write versionStyle)

namespace Song

/-- A song with the members of an object as its data; any other value gives none. -/
def ofJson (path : Path) (value : Json) (lead : String) : Song :=
  match value with
  | .object members => ⟨path, members, lead⟩
  | _ => ⟨path, [], lead⟩

/-- Whether any data is embedded. -/
def hasData (s : Song) : Bool := !s.data.isEmpty

/-- The text under a key of the data. -/
def textAt (s : Song) (key : String) : String := ((Assoc.find? s.data key).map Json.display).getD ""

/-- The file name of the path. -/
def fileName (s : Song) : String := s.path.fileName?.getD ""

/-- The title, or the file name without its extension where the title is empty. -/
def title (s : Song) : String :=
  if s.textAt "Title" = "" then s.path.stem?.getD "" else s.textAt "Title"

/-- The artist. -/
def artist (s : Song) : String := s.textAt "Artist"

/-- The cover artist. -/
def coverArtist (s : Song) : String := s.textAt "CoverArtist"

/-- The version as a number: a number or a numeric text that is finite, otherwise zero. -/
def version (s : Song) : Double :=
  let value? :=
    match Assoc.find? s.data "Version" with
    | some (.number n) => some n.toDouble
    | some (.string text) => (Numeric.ofChars? (Text.trimChars text.toList)).bind Numeric.finite?
    | _ => none
  value?.getD (.zero false)

/-- The version as it is shown. -/
def versionText (s : Song) : String := writeVersion s.version

/-- The version as the data writes it, `0` where it is missing. -/
def rawVersion (s : Song) : String :=
  match Assoc.find? s.data "Version" with
  | none => "0"
  | some .null => "0"
  | some (.number (.float value)) => writeVersion value
  | some value => value.display

/-- The identity of the song. -/
def identity (s : Song) : Identity := .of s.title s.artist s.coverArtist

/-- The text of a field. -/
def field (s : Song) : Field → String
  | .title => s.title
  | .artist => s.artist
  | .coverArtist => s.coverArtist
  | .version => s.versionText
  | .disc => s.textAt "Discnumber"
  | .track => s.textAt "Track"
  | .date => s.textAt "Date"
  | .comment => s.textAt "Comment"
  | .special => s.textAt "Special"
  | .file => s.fileName

/-- The text of a field, or under a key of the data if no field has that name. -/
def get (s : Song) (name : String) : String :=
  match Field.ofName? name with
  | some f => s.field f
  | none => s.textAt name

end Song

end SongLibrary
