import SongLibrary.Rule.Engine

/-!
# Presets

A preset holds a list of rules for each of the three texts that it makes, the title, the artist and
the album of a tag.
-/

namespace SongLibrary

/-- Lists of rules for a title, an artist and an album. -/
structure Preset where
  title : List Rule
  artist : List Rule
  album : List Rule
  deriving DecidableEq, Repr

/-- The texts that a preset makes of a song; an empty one leaves what is there. -/
structure Outputs where
  title : String
  artist : String
  album : String
  deriving DecidableEq, Repr

namespace Preset

/-- The preset without rules. -/
def empty : Preset := ⟨[], [], []⟩

/-- The preset with at most the first `max` rules of every list. -/
def truncate (p : Preset) (max : Nat) : Preset :=
  ⟨p.title.take max, p.artist.take max, p.album.take max⟩

/-- Whether there are no rules. -/
def isEmpty (p : Preset) : Bool := p.title.isEmpty && p.artist.isEmpty && p.album.isEmpty

/-- What the preset makes of a song. -/
def outputs (p : Preset) (policy : Policy) (song : Song) (index : VersionIndex) : Outputs where
  title := Rule.output policy p.title song index
  artist := Rule.output policy p.artist song index
  album := Rule.output policy p.album song index

end Preset

end SongLibrary
