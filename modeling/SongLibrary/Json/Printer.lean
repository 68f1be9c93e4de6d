import SongLibrary.Json.Token
import SongLibrary.Number.Style

/-!
# Writing JSON

A value has two written forms: the compact one, without any blank, and the indented one, with each
item and member on a line of its own and two more blanks per level. Empty arrays and objects are
written the same in both.
-/

namespace SongLibrary.Json

/-- Doubles keep a decimal point, have all their places while the first digit stands between the
fifth place behind the point and the sixteenth before it, and an exponent otherwise; of two nearest
decimals the one with an even digit is written. -/
def numberStyle : NumberStyle := ⟨.even, some (-5, 15), true⟩

/-- A number. -/
def Number.write : Number → List Char
  | .int value _ => writeInt value
  | .float value => value.write numberStyle

/-- A truth value. -/
def writeBool (b : Bool) : List Char := if b then "true".toList else "false".toList

mutual

/-- The compact form of a value. -/
def writeCompact : Json → List Char
  | .null => "null".toList
  | .bool value => writeBool value
  | .number value => value.write
  | .string value => quote value
  | .array [] => ['[', ']']
  | .array (item :: rest) => '[' :: writeCompact item ++ writeCompactItems rest ++ [']']
  | .object [] => ['\x7b', '\x7d']
  | .object ((key, value) :: rest) =>
    '\x7b' :: quote key ++ ':' :: writeCompact value ++ writeCompactMembers rest ++ ['\x7d']

/-- Further items of an array. -/
def writeCompactItems : List Json → List Char
  | [] => []
  | item :: rest => ',' :: writeCompact item ++ writeCompactItems rest

/-- Further members of an object. -/
def writeCompactMembers : List (String × Json) → List Char
  | [] => []
  | (key, value) :: rest =>
    ',' :: quote key ++ ':' :: writeCompact value ++ writeCompactMembers rest

end

/-- A new line at a level. -/
def lineAt (level : Nat) : List Char := '\n' :: List.replicate (2 * level) ' '

mutual

/-- The indented form of a value that stands at a level. -/
def writeIndented (level : Nat) : Json → List Char
  | .null => "null".toList
  | .bool value => writeBool value
  | .number value => value.write
  | .string value => quote value
  | .array [] => ['[', ']']
  | .array (item :: rest) =>
    '[' :: lineAt (level + 1) ++ writeIndented (level + 1) item
      ++ writeIndentedItems (level + 1) rest ++ lineAt level ++ [']']
  | .object [] => ['\x7b', '\x7d']
  | .object ((key, value) :: rest) =>
    '\x7b' :: lineAt (level + 1) ++ quote key ++ ':' :: ' ' :: writeIndented (level + 1) value
      ++ writeIndentedMembers (level + 1) rest ++ lineAt level ++ ['\x7d']

/-- Further items of an array, each on a line of its own. -/
def writeIndentedItems (level : Nat) : List Json → List Char
  | [] => []
  | item :: rest =>
    ',' :: lineAt level ++ writeIndented level item ++ writeIndentedItems level rest

/-- Further members of an object, each on a line of its own. -/
def writeIndentedMembers (level : Nat) : List (String × Json) → List Char
  | [] => []
  | (key, value) :: rest =>
    ',' :: lineAt level ++ quote key ++ ':' :: ' ' :: writeIndented level value
      ++ writeIndentedMembers level rest

end

/-- The compact text of a value. -/
def compact (v : Json) : String := String.ofList v.writeCompact

/-- The indented text of a value. -/
def indented (v : Json) : String := String.ofList (v.writeIndented 0)

end SongLibrary.Json
