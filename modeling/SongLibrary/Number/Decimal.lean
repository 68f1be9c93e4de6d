import SongLibrary.Number.Double
import SongLibrary.Text.Digit

/-!
# Decimal numbers

A decimal is a natural number times a power of ten. Reading one as a double rounds its exact value;
two short cuts keep the powers of ten small when the outcome is certain, zero or too large.

A `Numeral` is a number as it stands in a text, cut into its parts. The grammars that use it differ
only in which parts they demand.
-/

namespace SongLibrary

/-- The number `digits * 10 ^ exponent`. -/
structure Decimal where
  digits : Nat
  exponent : Int
  deriving DecidableEq

/-- The decimal digits of a number, most significant first. -/
def digitsOf (n : Nat) : List Char := Nat.toDigits 10 n

namespace Decimal

/-- The double nearest to a decimal with a sign; `none` if it would be too large. -/
def toDouble? (negative : Bool) (d : Decimal) : Option Double :=
  if d.digits = 0 then some (.zero negative)
  else if 309 < d.exponent then none
  else if (d.digits.log2 : Int) + 1080 < -3 * d.exponent then some (.zero negative)
  else Double.ofRatio? negative (d.digits * Nat.pow 10 d.exponent.toNat)
    (Nat.pow 10 (-d.exponent).toNat)

/-- The exponent of the first digit. -/
def leading (d : Decimal) : Int := d.exponent + (digitsOf d.digits).length - 1

end Decimal

/-- A number as written: its sign, the digits before the point, those after it, and the sign and
digits of the exponent. -/
structure Numeral where
  sign : Option Char
  whole : List Char
  fraction : Option (List Char)
  exponent : Option (Option Char × List Char)
  deriving DecidableEq

namespace Numeral

/-- The sign at the beginning of a text and the rest. -/
def takeSign : List Char → Option Char × List Char
  | '+' :: rest => (some '+', rest)
  | '-' :: rest => (some '-', rest)
  | cs => (none, cs)

/-- The fraction at the beginning of a text, a point and any digits, and the rest. -/
def takeFraction : List Char → Option (List Char) × List Char
  | '.' :: rest => (some (rest.takeWhile Char.isDigit), rest.dropWhile Char.isDigit)
  | cs => (none, cs)

/-- Reads an exponent, an `e` of either case, a sign and any digits, that ends its text. -/
def readExponent? : List Char → Option (Option (Option Char × List Char))
  | [] => some none
  | c :: rest =>
    let (sign, digits) := takeSign rest
    if (c = 'e' ∨ c = 'E') ∧ digits.all Char.isDigit then some (some (sign, digits)) else none

/-- The parts of a numeral, any of which may lack its digits. -/
def ofChars? (cs : List Char) : Option Numeral := do
  let (sign, unsigned) := takeSign cs
  let (fraction, rest) := takeFraction (unsigned.dropWhile Char.isDigit)
  let exponent ← readExponent? rest
  return ⟨sign, unsigned.takeWhile Char.isDigit, fraction, exponent⟩

/-- Whether the numeral has a minus sign. -/
def negative (n : Numeral) : Bool := n.sign == some '-'

/-- The number that a list of ASCII digits writes. -/
def valueOf (digits : List Char) : Nat := (Text.natOfDigitsFrom? 0 digits).getD 0

/-- The exponent as a number, zero when there is none. -/
def exponentValue (n : Numeral) : Int :=
  match n.exponent with
  | none => 0
  | some (sign, digits) => if sign = some '-' then -(valueOf digits : Int) else valueOf digits

/-- The unsigned value of a numeral. -/
def toDecimal (n : Numeral) : Decimal :=
  let fraction := n.fraction.getD []
  ⟨valueOf (n.whole ++ fraction), n.exponentValue - fraction.length⟩

/-- Whether an exponent, if there is one, has digits. -/
def exponentComplete (n : Numeral) : Bool := n.exponent.all (fun e => !e.2.isEmpty)

end Numeral

end SongLibrary
