import SongLibrary.Json.Shape
import SongLibrary.Rule.Preset

/-!
# Rules and presets as JSON

Every member of a rule and of a preset may be missing. The logic may be null, and any text stands
for a logic; any text stands for an operator. What is written has all members in order.
-/

namespace SongLibrary

open Json (Document)

/-- Reads a logic; null counts as blank text. -/
def Logic.ofDocument? (d : Document) : Option Logic :=
  (d.nullable? Document.text?).map (fun text => .ofText (text.getD ""))

/-- Reads a policy. -/
def Policy.ofDocument? (d : Document) : Option Policy := d.named? Policy.names

namespace Rule

/-- The names of the members in order. -/
def memberNames : List String := ["logic", "if_field", "if_operator", "if_value", "then_template"]

/-- Reads a rule. -/
def ofDocument? (d : Document) : Option Rule := do
  let record ← d.record? memberNames
  let logic ← record.get "logic" .and Logic.ofDocument?
  let field ← record.get "if_field" "" Document.text?
  let operator ← record.get "if_operator" .is (fun d => d.text?.map Operator.ofText)
  let value ← record.get "if_value" "" Document.text?
  let template ← record.get "then_template" "" Document.text?
  return ⟨logic, field, operator, value, template⟩

/-- The JSON form of a rule. -/
def toJson (r : Rule) : Json :=
  .object [("logic", .string r.logic.name), ("if_field", .string r.field),
    ("if_operator", .string r.operator.text), ("if_value", .string r.value),
    ("then_template", .string r.template)]

end Rule

namespace Preset

/-- The names of the members in order. -/
def memberNames : List String := ["title", "artist", "album"]

/-- Reads a preset. -/
def ofDocument? (d : Document) : Option Preset := do
  let record ← d.record? memberNames
  let title ← record.get "title" [] (Document.list? Rule.ofDocument?)
  let artist ← record.get "artist" [] (Document.list? Rule.ofDocument?)
  let album ← record.get "album" [] (Document.list? Rule.ofDocument?)
  return ⟨title, artist, album⟩

/-- The JSON form of a preset. -/
def toJson (p : Preset) : Json :=
  let rules := fun list : List Rule => Json.array (list.map Rule.toJson)
  .object [("title", rules p.title), ("artist", rules p.artist), ("album", rules p.album)]

end Preset

end SongLibrary
