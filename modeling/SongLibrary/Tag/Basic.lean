import SongLibrary.Text.Bytes
import SongLibrary.Text.NulSeparated

/-!
# Tags

A tag holds texts for a few frames and a list of comments. Comments are told apart by language and
description: adding one takes the place of another with the same two, at the end of the list. Frames
of other kinds are kept as the bytes they hold.

The data of a song stands in the one comment of the language `ved`. An update that carries such a
comment replaces all of that language and leaves the other comments alone.

A tag in a file is a run of bytes, in which NUL has a meaning of its own and a language has three
bytes. `Tag.stored` says what is found there of a tag that is written into a file.
-/

namespace SongLibrary

/-- A comment of a tag. -/
structure Comment where
  language : String
  description : String
  text : String
  deriving DecidableEq, Repr

/-- A frame of another kind. -/
structure OtherFrame where
  name : String
  content : List UInt8
  deriving DecidableEq, Repr

/-- The frames of a tag. -/
structure Tag where
  title : Option String
  artist : Option String
  album : Option String
  track : Option String
  disc : Option String
  date : Option String
  comments : List Comment
  others : List OtherFrame
  deriving DecidableEq, Repr

/-- What is to be written into a tag; a part without a text leaves what is there. -/
structure TagUpdate where
  title : Option String
  artist : Option String
  album : Option String
  track : Option String
  disc : Option String
  date : Option String
  /-- The text of the comment with the data of the song. -/
  data : Option String
  deriving DecidableEq, Repr

/-- The language of the comment with the data of a song. -/
def Comment.dataLanguage : String := "ved"

/-- The comment with the data of a song. -/
def Comment.ofData (text : String) : Comment := ⟨dataLanguage, "", text⟩

/-- Whether a comment holds the data of a song. -/
def Comment.holdsData (c : Comment) : Bool := c.language == dataLanguage

/-- Comments with one more, which takes the place of one with its language and description. -/
def Comment.add (comments : List Comment) (c : Comment) : List Comment :=
  comments.filter (fun d => d.language ≠ c.language ∨ d.description ≠ c.description) ++ [c]

/-- The texts of a comment, which stand with NUL between them. -/
def Comment.texts (c : Comment) : List String := Text.splitAtNuls c.text

/-! ## Texts in files -/

/-- The text of a frame as a file holds it. NULs behind two bytes or more only end the text. -/
def storedText (text : String) : String :=
  let whole := String.ofList (Text.dropClosingNuls text.toList)
  if 2 ≤ whole.utf8ByteSize then whole else text

/-- The bytes of a language. -/
def Comment.languageSize : Nat := 3

/-- A language as a file holds it: its first bytes, with blanks for those that are missing. Each
byte is read as one character. -/
def Comment.storedLanguage (language : String) : String :=
  let filled := Text.bytes language ++ List.replicate languageSize ' '.toUInt8
  String.ofList ((filled.take languageSize).map (fun byte => Char.ofNat byte.toNat))

/-- A comment as a file holds it. What follows a NUL in the description belongs to the text. -/
def Comment.stored (c : Comment) : Comment where
  language := storedLanguage c.language
  description := String.ofList (c.description.toList.takeWhile (· ≠ Text.nul))
  text :=
    match c.description.toList.dropWhile (· ≠ Text.nul) with
    | [] => c.text
    | nul :: rest => String.ofList (rest ++ nul :: c.text.toList)

/-! ## Tags -/

namespace Tag

/-- The tag without frames. -/
def empty : Tag := ⟨none, none, none, none, none, none, [], []⟩

/-- The tag with just some comments. -/
def ofComments (comments : List Comment) : Tag :=
  { empty with comments := comments.foldl Comment.add [] }

/-- A tag as a file holds it. -/
def stored (t : Tag) : Tag :=
  { title := t.title.map storedText
    artist := t.artist.map storedText
    album := t.album.map storedText
    track := t.track.map storedText
    disc := t.disc.map storedText
    date := t.date.map storedText
    comments := (t.comments.map Comment.stored).foldl Comment.add []
    others := t.others }

/-- The comments of a tag with the data of a song replaced. -/
def replaceData (comments : List Comment) (text : String) : List Comment :=
  Comment.add ((comments.filter (fun c => !c.holdsData)).foldl Comment.add []) (.ofData text)

/-- The tag after an update. -/
def update (t : Tag) (u : TagUpdate) : Tag where
  title := u.title.or t.title
  artist := u.artist.or t.artist
  album := u.album.or t.album
  track := u.track.or t.track
  disc := u.disc.or t.disc
  date := u.date.or t.date
  comments :=
    match u.data with
    | some text => replaceData t.comments text
    | none => t.comments
  others := t.others

end Tag

end SongLibrary
