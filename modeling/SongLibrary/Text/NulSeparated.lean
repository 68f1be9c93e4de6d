import SongLibrary.Text.Split

/-!
# Texts with NUL between them

In a tag, NUL ends a text or separates several. `splitAtNuls` gives the texts that stand with NUL
between them, and `dropClosingNuls` leaves out the NULs at the end.
-/

namespace SongLibrary.Text

/-- The character with the number zero. -/
def nul : Char := '\x00'

/-- The texts between the NULs of a text. -/
def splitAtNuls (text : String) : List String :=
  (splitWhere (· == nul) text.toList).map String.ofList

/-- Characters without the NULs at the end. -/
def dropClosingNuls (cs : List Char) : List Char := (cs.reverse.dropWhile (· = nul)).reverse

end SongLibrary.Text
