import SongLibrary.Text.Search
import SongLibrary.VersionIndex

/-!
# Filters

A filter compares the text of a field with a value, in lower case. Two texts that are numeric are
ordered as numbers, what is not a number being equal to everything, and any others by their
characters. The value `latest` of the version field asks for the latest version instead, where the
comparison is one for equality or containment or its opposite.
-/

namespace SongLibrary

/-- How a filter compares. -/
inductive Comparison where
  | contains
  | notContains
  | equals
  | notEquals
  | greater
  | greaterOrEqual
  | less
  | lessOrEqual
  deriving DecidableEq, Repr

namespace Comparison

/-- The symbols of comparisons; the first symbol of each is the one it is written with. -/
def symbols : List (String × Comparison) :=
  [("=", .contains), ("~", .contains), ("!~", .notContains), ("==", .equals), ("!=", .notEquals),
   (">", .greater), (">=", .greaterOrEqual), ("<", .less), ("<=", .lessOrEqual)]

/-- The comparison of a symbol. -/
def ofSymbol? (symbol : String) : Option Comparison := symbols.lookup symbol

/-- The symbol that a comparison is written with. -/
def symbol : Comparison → String
  | .contains => "="
  | .notContains => "!~"
  | .equals => "=="
  | .notEquals => "!="
  | .greater => ">"
  | .greaterOrEqual => ">="
  | .less => "<"
  | .lessOrEqual => "<="

end Comparison

/-- A comparison of a field with a value. -/
structure Filter where
  field : Field
  comparison : Comparison
  value : String
  deriving DecidableEq, Repr

/-- The order of two texts: of the numbers they write, if both do, otherwise of the characters. -/
def orderTexts (a b : String) : Ordering :=
  match Numeric.ofChars? (Text.trimChars a.toList), Numeric.ofChars? (Text.trimChars b.toList) with
  | some m, some n => (m.order? n).getD .eq
  | _, _ => compare a b

namespace Filter

/-- Whether a filter asks for the latest version, `some false` for one that asks for the others. -/
def latestWanted? (f : Filter) : Option Bool :=
  if f.field = .version ∧ Text.equalsIgnoringAsciiCase f.value "latest" then
    match f.comparison with
    | .contains | .equals => some true
    | .notContains | .notEquals => some false
    | _ => none
  else none

/-- Whether a lower-case text compares with a lower-case value. -/
def compares (comparison : Comparison) (actual expected : String) : Bool :=
  match comparison with
  | .contains => Text.contains actual expected
  | .notContains => !Text.contains actual expected
  | .equals => orderTexts actual expected == .eq
  | .notEquals => orderTexts actual expected != .eq
  | .greater => orderTexts actual expected == .gt
  | .greaterOrEqual => orderTexts actual expected != .lt
  | .less => orderTexts actual expected == .lt
  | .lessOrEqual => orderTexts actual expected != .gt

/-- Whether a song passes the filter. -/
def matchesSong (f : Filter) (song : Song) (index : VersionIndex) : Bool :=
  match f.latestWanted? with
  | some wanted => index.isLatest song == wanted
  | none => compares f.comparison (Text.lowercase (song.field f.field)) (Text.lowercase f.value)

/-- The filter in words. -/
def describe (f : Filter) : String := f.field.name ++ " " ++ f.comparison.symbol ++ " " ++ f.value

end Filter

end SongLibrary
