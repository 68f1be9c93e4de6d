import SongLibrary.Error
import SongLibrary.Json.Shape
import SongLibrary.View.Sort

/-!
# Editing sort levels

A list of levels that is edited in place. It has a first level, which can be replaced but neither
removed nor moved, and at most a fixed number of levels in all.
-/

namespace SongLibrary

namespace SortLevel

/-- The names of the members in order. -/
def memberNames : List String := ["field", "order"]

/-- Reads a level. The direction may be missing, the field may not. -/
def ofDocument? (d : Json.Document) : Option SortLevel := do
  let record ← d.record? memberNames
  let field ← record.require "field" Json.Document.text?
  let direction ← record.get "order" .ascending (Json.Document.named? Direction.names)
  return ⟨field, direction⟩

/-- The JSON form of a level. -/
def toJson (level : SortLevel) : Json :=
  .object [("field", .string level.field), ("order", .string level.direction.name)]

/-- The level that lists start with: titles, ascending. -/
def byTitle : SortLevel := ⟨Field.title.name, .ascending⟩

end SortLevel

/-- Sort levels and how many of them there may be. -/
structure SortLevels where
  levels : List SortLevel
  limit : Nat
  deriving DecidableEq, Repr

namespace SortLevels

/-- A single level. At least one is always allowed. -/
def single (first : SortLevel) (limit : Nat) : SortLevels := ⟨[first], max limit 1⟩

/-- Saved levels, those beyond the limit left out; titles ascending if there are none. -/
def ofSaved (saved : List SortLevel) (limit : Nat) : SortLevels :=
  if saved.isEmpty then single .byTitle limit else ⟨saved.take (max limit 1), max limit 1⟩

/-- How many levels there are. -/
def size (s : SortLevels) : Nat := s.levels.length

/-- Whether there are no levels. -/
def isEmpty (s : SortLevels) : Bool := s.levels.isEmpty

/-- Whether no further level fits. -/
def isFull (s : SortLevels) : Bool := s.limit ≤ s.size

/-- Adds a level at the end. -/
def push (s : SortLevels) (level : SortLevel) : Except Error SortLevels :=
  if s.isFull then .error (.levelsFull s.limit) else .ok { s with levels := s.levels ++ [level] }

/-- Removes a level other than the first. -/
def remove? (s : SortLevels) (index : Nat) : Option SortLevels :=
  if 0 < index ∧ index < s.size then some { s with levels := s.levels.eraseIdx index } else none

/-- Moves a level other than the first by some places, but not to the first. -/
def move? (s : SortLevels) (index : Nat) (places : Int) : Option SortLevels :=
  let target := index + places
  if h : 0 < index ∧ index < s.levels.length ∧ 1 ≤ target ∧ target < s.levels.length then
    let level := s.levels.get ⟨index, h.2.1⟩
    some { s with levels := (s.levels.eraseIdx index).insertIdx target.toNat level }
  else none

/-- Replaces a level. -/
def set? (s : SortLevels) (index : Nat) (level : SortLevel) : Option SortLevels :=
  if index < s.size then some { s with levels := s.levels.set index level } else none

end SortLevels

/-- A change to sort levels. -/
inductive LevelEdit where
  | push (level : SortLevel)
  | remove (index : Nat)
  | move (index : Nat) (places : Int)
  | set (index : Nat) (level : SortLevel)
  deriving DecidableEq, Repr

namespace SortLevels

/-- The levels after a change, and whether it has been made. One that is not made leaves them. -/
def edit (s : SortLevels) : LevelEdit → SortLevels × Except Error Bool
  | .push level =>
    match s.push level with
    | .ok s' => (s', .ok true)
    | .error e => (s, .error e)
  | .remove index => answer (s.remove? index)
  | .move index places => answer (s.move? index places)
  | .set index level => answer (s.set? index level)
where
  /-- The answer to a change that can be refused. -/
  answer (changed : Option SortLevels) : SortLevels × Except Error Bool :=
    (changed.getD s, .ok changed.isSome)

/-- The levels after some changes. -/
def run (s : SortLevels) (edits : List LevelEdit) : SortLevels :=
  edits.foldl (fun s e => (s.edit e).1) s

end SortLevels

end SongLibrary
