import SongLibrary.Text.Digit
import SongLibrary.Text.Split

/-!
# Version texts

A version text is read as the list of its runs of decimal digits, so that `1.10` comes after `1.9`
and `2` after both. A run counts as zero if it does not fit into 64 bits or holds a digit that is
not ASCII, and a text without digits is the version zero.
-/

namespace SongLibrary.VersionText

/-- The number that a run of digits stands for. -/
def runValue (run : List Char) : Nat :=
  match Text.natOfDigits? run with
  | some n => if n < 18446744073709551616 then n else 0
  | none => 0

/-- The runs of decimal digits of a text. -/
def digitRuns (cs : List Char) : List (List Char) :=
  (Text.splitWhere (fun c => !Text.isDecimalDigit c) cs).filter (fun run => !run.isEmpty)

/-- The components of a version, at least one. -/
def components (text : String) : List Nat :=
  match (digitRuns text.toList).map runValue with
  | [] => [0]
  | values => values

/-- The first component of a version. -/
def leadingNumber (text : String) : Nat :=
  let fromDigit := text.toList.dropWhile (fun c => !Text.isDecimalDigit c)
  runValue (fromDigit.takeWhile Text.isDecimalDigit)

end SongLibrary.VersionText
