/-!
# Units of sixteen bits

A character is written in units of sixteen bits as its number, if that fits, or as a pair of
surrogates, the high one first. A surrogate without its partner is part of no text.
-/

namespace SongLibrary.Text

/-- Whether a unit is the first half of a surrogate pair. -/
def isHighSurrogate (unit : Nat) : Bool := 0xd800 ≤ unit && unit < 0xdc00

/-- Whether a unit is the second half of a surrogate pair. -/
def isLowSurrogate (unit : Nat) : Bool := 0xdc00 ≤ unit && unit < 0xe000

/-- The character of a surrogate pair. -/
def ofSurrogates (high low : Nat) : Char :=
  Char.ofNat (0x10000 + (high - 0xd800) * 0x400 + (low - 0xdc00))

/-- The characters of some units, if they are a text. -/
def ofUnits? : List Nat → Option (List Char)
  | [] => some []
  | [unit] => if isHighSurrogate unit || isLowSurrogate unit then none else some [Char.ofNat unit]
  | high :: low :: rest =>
    if isHighSurrogate high then
      if isLowSurrogate low then (ofUnits? rest).map (ofSurrogates high low :: ·) else none
    else if isLowSurrogate high then none
    else (ofUnits? (low :: rest)).map (Char.ofNat high :: ·)

end SongLibrary.Text
