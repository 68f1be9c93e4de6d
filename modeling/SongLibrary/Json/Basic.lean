import SongLibrary.Assoc
import SongLibrary.Number.Decimal

/-!
# JSON values

A value with the members of its objects in order. An integer of at most 64 bits is kept as an
integer, any other number as a double. Nothing here keeps the keys of an object apart: the readers
build objects with `Assoc.put`, which does, and `Json.DistinctKeys` says it of a value.
-/

namespace SongLibrary

namespace Json

/-- Whether an integer fits into 64 bits, with a sign or without. -/
abbrev Number.Fits (n : Int) : Prop := -9223372036854775808 ≤ n ∧ n < 18446744073709551616

/-- A number: an integer that fits into 64 bits, or a double. -/
inductive Number where
  | int (value : Int) (fits : Number.Fits value)
  | float (value : Double)
  deriving DecidableEq

end Json

/-- A JSON value. -/
inductive Json where
  | null
  | bool (value : Bool)
  | number (value : Json.Number)
  | string (value : String)
  | array (items : List Json)
  | object (members : List (String × Json))
  deriving Inhabited

namespace Json

/-- The members of an object in order. -/
abbrev Members := Assoc String Json

namespace Number

/-- A natural number of at most 64 bits as a JSON number. -/
def ofNat (n : Nat) (h : n < 18446744073709551616 := by omega) : Number := .int n (by omega)

/-- The value as a double. -/
def toDouble : Number → Double
  | .int value _ => .ofInt value
  | .float value => value

/-- Whether the parts of a numeral make up a JSON number: no plus sign, digits before the point and
no needless zero among them, and digits wherever a point or an exponent asks for them. -/
def wellFormed (n : Numeral) : Bool :=
  n.sign ≠ some '+' && !n.whole.isEmpty && (n.whole.head? ≠ some '0' || n.whole.length == 1)
    && n.fraction.all (fun digits => !digits.isEmpty) && n.exponentComplete

/-- The number that a numeral writes: an integer if it has neither point nor exponent, is in range
and is not a negative zero; otherwise a double, `none` if that would be too large. -/
def ofNumeral? (n : Numeral) : Option Number :=
  let digits := Numeral.valueOf n.whole
  let value : Int := if n.negative then -(digits : Int) else digits
  if n.fraction.isNone ∧ n.exponent.isNone ∧ ¬(n.negative ∧ digits = 0) then
    if h : Fits value then some (.int value h)
    else (n.toDecimal.toDouble? n.negative).map .float
  else (n.toDecimal.toDouble? n.negative).map .float

end Number

/-- A natural number as a value; one that does not fit into 64 bits becomes a double. -/
def ofNat (n : Nat) : Json :=
  if h : n < 18446744073709551616 then .number (.ofNat n h) else .number (.float (.ofInt n))

/-- The value of a member; `none` for a value that is no object. -/
def get? : Json → String → Option Json
  | .object members, key => Assoc.find? members key
  | _, _ => none

mutual

/-- Every object in the value has distinct keys. -/
def DistinctKeys : Json → Prop
  | .array items => DistinctKeysItems items
  | .object members => (Assoc.keys members).Nodup ∧ DistinctKeysMembers members
  | _ => True

/-- Every object among the items has distinct keys. -/
def DistinctKeysItems : List Json → Prop
  | [] => True
  | item :: rest => DistinctKeys item ∧ DistinctKeysItems rest

/-- Every object among the values of the members has distinct keys. -/
def DistinctKeysMembers : List (String × Json) → Prop
  | [] => True
  | (_, value) :: rest => DistinctKeys value ∧ DistinctKeysMembers rest

end

mutual

/-- How deeply arrays and objects are nested. -/
def depth : Json → Nat
  | .array items => depthItems items + 1
  | .object members => depthMembers members + 1
  | _ => 0

/-- The greatest depth among items. -/
def depthItems : List Json → Nat
  | [] => 0
  | item :: rest => max (depth item) (depthItems rest)

/-- The greatest depth among the values of members. -/
def depthMembers : List (String × Json) → Nat
  | [] => 0
  | (_, value) :: rest => max (depth value) (depthMembers rest)

end

end Json

end SongLibrary
