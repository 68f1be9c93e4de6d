import SongLibrary.Song.Position
import SongLibrary.VersionIndex

/-!
# Sorting songs

Songs are sorted by levels. A level names a field and a direction, and gives every song a key: the
disc and the special mark are integers, the track is a pair, the version is its first component,
and anything else is text in lower case. The first level on which two songs differ decides, in its
own direction, and songs that differ on none keep their order.
-/

namespace SongLibrary

/-- The direction of a level. -/
inductive Direction where
  | ascending
  | descending
  deriving DecidableEq, Repr

namespace Direction

/-- The names of the directions. -/
def names : List (String × Direction) := [("asc", .ascending), ("desc", .descending)]

/-- The name of a direction. -/
def name : Direction → String
  | .ascending => "asc"
  | .descending => "desc"

/-- An order seen in a direction. -/
def orient : Direction → Ordering → Ordering
  | .ascending, o => o
  | .descending, o => o.swap

end Direction

/-- A level of sorting. The field may be one that is not known, whose text is that of the data. -/
structure SortLevel where
  field : String
  direction : Direction
  deriving DecidableEq, Repr

/-- What a song is compared by on a level. -/
inductive SortKey where
  | int (n : Int)
  | pair (first second : Int)
  | text (text : String)
  deriving DecidableEq, Repr

namespace SortKey

/-- The order of keys; the keys of one level are all of one kind. -/
def order : SortKey → SortKey → Ordering
  | .int a, .int b => compare a b
  | .pair a b, .pair c d => (compare a c).then (compare b d)
  | .text a, .text b => compare a b
  | .int _, _ => .lt
  | .pair _ _, .int _ => .gt
  | .pair _ _, .text _ => .lt
  | .text _, _ => .gt

end SortKey

namespace SortLevel

/-- The key of a version: its first component, zero if that has no signed integer of 64 bits. -/
def versionKey (version : String) : Int :=
  let n := VersionText.leadingNumber version
  if n ≤ 9223372036854775807 then n else 0

/-- The key of a song on a level. -/
def key (level : SortLevel) (song : Song) : SortKey :=
  match Field.ofName? level.field with
  | some .disc => .int (Position.intOrZero (song.field .disc).toList)
  | some .special => .int (Position.intOrZero (song.field .special).toList)
  | some .track =>
    let (number, total) := Position.pair (song.field .track).toList
    .pair number total
  | some .version => .int (versionKey song.rawVersion)
  | some f => .text (Text.lowercase (song.field f))
  | none => .text (Text.lowercase (song.get level.field))

end SortLevel

/-- The order of two lists of keys under levels. -/
def orderKeys : List SortLevel → List SortKey → List SortKey → Ordering
  | level :: levels, a :: as, b :: bs =>
    (level.direction.orient (a.order b)).then (orderKeys levels as bs)
  | _, _, _ => .eq

/-- Songs sorted by levels. -/
def sortSongs {α : Type} (song : α → Song) (levels : List SortLevel) (rows : List α) : List α :=
  let keyed := rows.map (fun row => (levels.map (fun level => level.key (song row)), row))
  (keyed.mergeSort (fun a b => orderKeys levels a.1 b.1 != .gt)).map Prod.snd

end SongLibrary
