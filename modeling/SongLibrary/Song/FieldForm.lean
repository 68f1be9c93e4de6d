import SongLibrary.Json.Shape
import SongLibrary.Song.Field

/-!
# Fields as JSON

A field is written as its name. A field that is read has to be written so, in lower-case letters and
without its second name.
-/

namespace SongLibrary.Field

/-- Reads a field. -/
def ofDocument? (d : Json.Document) : Option Field := d.named? (all.map (fun f => (f.name, f)))

/-- The JSON form of a field. -/
def toJson (f : Field) : Json := .string f.name

end SongLibrary.Field
