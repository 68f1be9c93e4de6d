import SongLibrary.Text.Lowercase

/-!
# The fields of a song

The closed set of fields that the library knows about. A field is named in any letter case, and two
of them have a second name.
-/

namespace SongLibrary

/-- A known field. -/
inductive Field where
  | title
  | artist
  | coverArtist
  | version
  | disc
  | track
  | date
  | comment
  | special
  /-- The file name of the song's path. -/
  | file
  deriving DecidableEq, Repr

namespace Field

/-- Every field, in the order of the columns that show them. -/
def all : List Field :=
  [.title, .artist, .coverArtist, .version, .disc, .track, .date, .comment, .special, .file]

/-- The lower-case name of a field, as queries and sort levels use it. -/
def name : Field → String
  | .title => "title"
  | .artist => "artist"
  | .coverArtist => "coverartist"
  | .version => "version"
  | .disc => "disc"
  | .track => "track"
  | .date => "date"
  | .comment => "comment"
  | .special => "special"
  | .file => "file"

/-- The key of a field in the embedded data; the file name is not part of the data. -/
def key? : Field → Option String
  | .title => some "Title"
  | .artist => some "Artist"
  | .coverArtist => some "CoverArtist"
  | .version => some "Version"
  | .disc => some "Discnumber"
  | .track => some "Track"
  | .date => some "Date"
  | .comment => some "Comment"
  | .special => some "Special"
  | .file => none

/-- The place of a field among the columns. -/
def column (f : Field) : Nat := all.idxOf f

/-- The lower-case names under which fields are found: the name of each and the second names of
the disc and the file. -/
def names : List (String × Field) :=
  all.map (fun f => (f.name, f)) ++ [("discnumber", .disc), ("filename", .file)]

/-- The field with a name, whatever its letter case; blanks around a name are not ignored. -/
def ofName? (name : String) : Option Field := names.lookup (Text.lowercase name)

end Field

end SongLibrary
