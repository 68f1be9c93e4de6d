import SongLibrary.Rule.Preset
import SongLibrary.Song.Embedded
import SongLibrary.Tag.Basic

/-!
# What a preset writes into a tag

A blank title or artist keeps what the song has, and a blank album leaves the album of the tag
alone. The track, the disc and the date are those of the song where it has them, and its data is
written back as it was read.
-/

namespace SongLibrary

/-- A text unless it is empty. -/
def nonEmpty? (text : String) : Option String := if text.isEmpty then none else some text

/-- The update that the outputs of a preset ask for. -/
def TagUpdate.ofOutputs (outputs : Outputs) (song : Song) : TagUpdate where
  title := some (if Text.isBlankText outputs.title then song.title else outputs.title)
  artist := some (if Text.isBlankText outputs.artist then song.artist else outputs.artist)
  album := if Text.isBlankText outputs.album then none else some outputs.album
  track := nonEmpty? (song.field .track)
  disc := nonEmpty? (song.field .disc)
  date := nonEmpty? (song.field .date)
  data := some (Embedded.compose song.lead song.data)

/-- The update that a preset makes of a song. -/
def Preset.update (p : Preset) (policy : Policy) (song : Song) (index : VersionIndex) : TagUpdate :=
  .ofOutputs (p.outputs policy song index) song

end SongLibrary
