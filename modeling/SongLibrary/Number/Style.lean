import SongLibrary.Number.Shortest

/-!
# Writing doubles

The digits of a double are those of its shortest decimal. A `NumberStyle` fixes the rest: how ties
between decimals go, which numbers are written with all their places and which with an exponent,
and whether a whole number keeps a decimal point.
-/

namespace SongLibrary

/-- How the decimal of a double is laid out. -/
structure NumberStyle where
  /-- Which of two equally near shortest decimals is written. -/
  tie : Tie
  /-- The exponents of a first digit for which all places are written; without it, all of them. -/
  positional : Option (Int × Int)
  /-- Whether `.0` is written behind a whole number that has all its places. -/
  keepPoint : Bool

namespace Decimal

/-- A decimal with all its places. -/
def positional (keepPoint : Bool) (d : Decimal) : List Char :=
  let digits := digitsOf d.digits
  if 0 ≤ d.exponent then
    digits ++ List.replicate d.exponent.toNat '0' ++ (if keepPoint then ['.', '0'] else [])
  else
    let places := (-d.exponent).toNat
    let padded := List.replicate (places + 1 - digits.length) '0' ++ digits
    let whole := padded.length - places
    padded.take whole ++ '.' :: padded.drop whole

/-- A decimal as one digit before the point and a signed exponent. -/
def scientific (d : Decimal) : List Char :=
  let exponent := d.leading
  let sign := if exponent < 0 then '-' else '+'
  let mantissa :=
    match digitsOf d.digits with
    | [] => []
    | [digit] => [digit]
    | digit :: rest => digit :: '.' :: rest
  mantissa ++ 'e' :: sign :: digitsOf exponent.natAbs

/-- An unsigned decimal laid out in a style. -/
def layOut (style : NumberStyle) (d : Decimal) : List Char :=
  let inPlaces := style.positional.all (fun r => r.1 ≤ d.leading ∧ d.leading ≤ r.2)
  if inPlaces then d.positional style.keepPoint else d.scientific

end Decimal

/-- A double written in a style; the sign of a negative zero is written too. -/
def Double.write (style : NumberStyle) (d : Double) : List Char :=
  let unsigned := (d.shortest style.tie).layOut style
  if d.negative then '-' :: unsigned else unsigned

/-- An integer in decimal digits. -/
def writeInt (n : Int) : List Char :=
  if n < 0 then '-' :: digitsOf n.natAbs else digitsOf n.natAbs

end SongLibrary
