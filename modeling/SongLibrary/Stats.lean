import SongLibrary.Assoc
import SongLibrary.Json.Basic
import SongLibrary.Song.Credit
import SongLibrary.Song.Basic

/-!
# Statistics of a collection

Songs are counted by whom their artist text credits: nobody, one artist, or several. Each count
says how many songs there are and how many identities they have. What is to be counted is gathered
in one pass over the songs.
-/

namespace SongLibrary

/-- A number of songs and the number of their identities. -/
structure Count where
  total : Nat
  unique : Nat
  deriving DecidableEq, Repr

namespace Count

/-- The JSON form of a count. -/
def toJson (c : Count) : Json :=
  .object [("total", .ofNat c.total), ("unique", .ofNat c.unique)]

end Count

/-- Songs that are counted together: their number and the identities they have. -/
structure Bucket where
  total : Nat
  identities : List Identity

namespace Bucket

/-- The bucket without songs. -/
def empty : Bucket := ⟨0, []⟩

/-- The bucket with one more song. -/
def add (b : Bucket) (s : Song) : Bucket := ⟨b.total + 1, b.identities.insert s.identity⟩

/-- The count of a bucket. -/
def count (b : Bucket) : Count := ⟨b.total, b.identities.length⟩

end Bucket

/-- The artists that a song credits. -/
def Song.credits (s : Song) : List String := Credit.names s.artist

/-- The statistics of a collection. -/
structure Stats where
  songs : Nat
  withoutData : Nat
  /-- How many pairs of a title and an artist there are. -/
  titlesByArtist : Nat
  identities : Nat
  /-- The songs of one artist alone, by artist in the order of characters. -/
  solo : List (String × Count)
  collaborations : Count
  uncredited : Count
  deriving DecidableEq, Repr

/-- What is gathered in a pass over some songs. -/
structure Tally where
  withoutData : Nat
  /-- The pairs of a title and an artist. -/
  pairs : List (String × String)
  identities : List Identity
  /-- The songs of one artist alone, by artist. -/
  solo : Assoc String Bucket
  collaborations : Bucket
  uncredited : Bucket

namespace Tally

/-- What is gathered at first. -/
def empty : Tally := ⟨0, [], [], [], .empty, .empty⟩

/-- A song is put into the bucket of its credits. -/
def credit (t : Tally) (s : Song) : Tally :=
  match s.credits with
  | [] => { t with uncredited := t.uncredited.add s }
  | [name] =>
    { t with solo := Assoc.put t.solo name (((Assoc.find? t.solo name).getD .empty).add s) }
  | _ => { t with collaborations := t.collaborations.add s }

/-- What is gathered with one more song. -/
def add (t : Tally) (s : Song) : Tally :=
  { t.credit s with
    withoutData := if s.hasData then t.withoutData else t.withoutData + 1
    pairs := t.pairs.insert (s.title, s.artist)
    identities := t.identities.insert s.identity }

end Tally

namespace Stats

/-- The statistics of some songs. -/
def of (songs : List Song) : Stats :=
  let t := songs.foldl Tally.add .empty
  { songs := songs.length
    withoutData := t.withoutData
    titlesByArtist := t.pairs.length
    identities := t.identities.length
    solo := (t.solo.map fun e => (e.1, e.2.count)).mergeSort fun a b => compare a.1 b.1 != .gt
    collaborations := t.collaborations.count
    uncredited := t.uncredited.count }

/-- The statistics in words. -/
def summary (s : Stats) : String :=
  toString s.songs ++ " songs | " ++ toString s.titlesByArtist ++ " unique | "
    ++ toString s.identities ++ " identities"

/-- The JSON form of statistics. -/
def toJson (s : Stats) : Json :=
  .object [("songs", .ofNat s.songs), ("without_metadata", .ofNat s.withoutData),
    ("unique_title_artist", .ofNat s.titlesByArtist), ("unique_identities", .ofNat s.identities),
    ("solo", .object (s.solo.map (fun e => (e.1, e.2.toJson)))),
    ("collaborations", s.collaborations.toJson), ("uncredited", s.uncredited.toJson)]

end Stats

end SongLibrary
