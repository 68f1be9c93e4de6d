import SongLibrary.Text.Blank
import SongLibrary.Text.Digit

/-!
# Positions on a disc

Disc and track numbers are texts. An integer that cannot be read counts as zero, and a track may be
written with the number of tracks behind a slash.
-/

namespace SongLibrary.Position

/-- A signed integer of 64 bits in ASCII digits. -/
def int64? (cs : List Char) : Option Int := do
  let n : Int ←
    match cs with
    | '-' :: digits => (Text.natOfDigits? digits).map (fun n => -(n : Int))
    | '+' :: digits => (Text.natOfDigits? digits).map Int.ofNat
    | digits => (Text.natOfDigits? digits).map Int.ofNat
  if -9223372036854775808 ≤ n ∧ n ≤ 9223372036854775807 then some n else none

/-- The integer of a text without the white space around it, zero if it is none. -/
def intOrZero (cs : List Char) : Int := (int64? (Text.trimChars cs)).getD 0

/-- The integers before and behind the first slash; each is zero where it is missing. -/
def pair (cs : List Char) : Int × Int :=
  let trimmed := Text.trimChars cs
  let number := trimmed.takeWhile (· ≠ '/')
  let total := (trimmed.dropWhile (· ≠ '/')).drop 1
  (intOrZero number, intOrZero total)

end SongLibrary.Position
