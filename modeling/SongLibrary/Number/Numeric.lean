import SongLibrary.Number.Decimal

/-!
# Numbers in free text

A text is numeric if it is a decimal with an optional sign, point and exponent, or names an
infinity or the value that is not a number. At least one digit has to stand before or after the
point, and an exponent needs digits too. A decimal beyond the doubles is infinite.
-/

namespace SongLibrary

/-- The value of a numeric text. -/
inductive Numeric where
  | finite (value : Double)
  | infinite (negative : Bool)
  | notANumber
  deriving DecidableEq

namespace Numeric

/-- Reads a text that is numeric as a whole. -/
def ofChars? (cs : List Char) : Option Numeric :=
  let (sign, unsigned) := Numeral.takeSign cs
  let word := String.ofList (unsigned.map Char.toLower)
  if word = "inf" ∨ word = "infinity" then some (.infinite (sign == some '-'))
  else if word = "nan" then some .notANumber
  else do
    let n ← Numeral.ofChars? cs
    if (n.whole ++ n.fraction.getD []).isEmpty || !n.exponentComplete then none
    else
      match n.toDecimal.toDouble? n.negative with
      | some value => return .finite value
      | none => return .infinite n.negative

/-- The finite value of a numeric text. -/
def finite? : Numeric → Option Double
  | .finite value => some value
  | _ => none

/-- The order of two numeric values; what is not a number is not comparable. -/
def order? : Numeric → Numeric → Option Ordering
  | .notANumber, _ => none
  | _, .notANumber => none
  | .finite a, .finite b => some (a.order b)
  | .infinite a, .infinite b => some (compare b.toNat a.toNat)
  | .finite _, .infinite b => some (if b then .gt else .lt)
  | .infinite a, .finite _ => some (if a then .lt else .gt)

end Numeric

end SongLibrary
