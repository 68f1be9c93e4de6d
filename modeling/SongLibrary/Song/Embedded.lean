import SongLibrary.Json.Document
import SongLibrary.Song.Basic

/-!
# Data embedded in comments

A comment bears data if the text from its first opening brace to its last closing brace is a JSON
object. The data of several comments is merged in order, later values winning, and the text before
the braces of the first of them is kept so that the comment can be written back.
-/

namespace SongLibrary

/-- A data object and the text before it. -/
structure Embedded where
  lead : String
  data : Json.Members

namespace Embedded

/-- A text cut at its first opening brace: what stands before it, and the text from there to the
last closing brace. -/
def braceSpan? (cs : List Char) : Option (List Char × List Char) :=
  let isOther := fun brace (c : Char) => c ≠ brace
  let fromBrace := cs.dropWhile (isOther '\x7b')
  let span := (fromBrace.reverse.dropWhile (isOther '\x7d')).reverse
  if span.isEmpty then none else some (cs.takeWhile (isOther '\x7b'), span)

/-- The data that one comment bears. -/
def ofText? (text : String) : Option Embedded :=
  match braceSpan? text.toList with
  | none => none
  | some (lead, span) =>
    match Json.ofChars? span with
    | some (.object members) => some ⟨String.ofList lead, members⟩
    | _ => none

/-- Data with that of a later comment merged into it. -/
def extend (e later : Embedded) : Embedded := ⟨e.lead, Assoc.merge e.data later.data⟩

/-- The data that comments bear together. -/
def ofTexts? (texts : List String) : Option Embedded :=
  match texts.filterMap ofText? with
  | [] => none
  | first :: rest => some (rest.foldl extend first)

/-- The comment that bears a data object behind a text. -/
def compose (lead : String) (data : Json.Members) : String :=
  lead ++ (Json.object data).compact

end Embedded

/-- A song with the data found in its file, if any. -/
def Song.ofEmbedded (path : Path) : Option Embedded → Song
  | some e => ⟨path, e.data, e.lead⟩
  | none => ⟨path, [], ""⟩

end SongLibrary
