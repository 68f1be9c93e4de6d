import SongLibrary.Song.Basic

/-!
# Templates

A template is text with placeholders: a name in braces stands for the text of that field of a song.
A closing brace without an opening one is text. A template in which an opening brace is not
followed by its closing brace, with no other opening brace between them, is malformed, and renders
as nothing at all. What a placeholder is replaced with is not looked at again.
-/

namespace SongLibrary.Template

/-- A part of a template. -/
inductive Part where
  | literal (c : Char)
  | field (name : List Char)
  deriving DecidableEq

/-- The parts of the rest of a template, of which `name` is the part of a placeholder that has been
read, in reverse; `none` if the template is malformed. -/
def partsFrom? (name : Option (List Char)) : List Char → Option (List Part)
  | [] => if name.isSome then none else some []
  | c :: rest =>
    match name with
    | none =>
      if c = '\x7b' then partsFrom? (some []) rest
      else (partsFrom? none rest).map (.literal c :: ·)
    | some read =>
      if c = '\x7d' then (partsFrom? none rest).map (.field read.reverse :: ·)
      else if c = '\x7b' then none
      else partsFrom? (some (c :: read)) rest

/-- The parts of a template. -/
def parts? (template : String) : Option (List Part) := partsFrom? none template.toList

/-- What a part becomes. -/
def Part.render (song : Song) : Part → List Char
  | .literal c => [c]
  | .field name => (song.get (String.ofList name)).toList

/-- What a template becomes for a song. -/
def render (template : String) (song : Song) : String :=
  match parts? template with
  | some parts => String.ofList (parts.flatMap (Part.render song))
  | none => ""

end SongLibrary.Template
