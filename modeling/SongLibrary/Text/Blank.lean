import SongLibrary.Text.Range
import SongLibrary.Text.Split

/-!
# White space

`isBlank` is the Unicode property of white space. Trimming removes it from the ends of a text, and
the words of a text are what stands between its runs of white space.
-/

namespace SongLibrary.Text

/-- The white space characters. -/
def blankTable : List (Nat × Nat) :=
  [(0x9, 0xd), (0x20, 0x20), (0x85, 0x85), (0xa0, 0xa0), (0x1680, 0x1680), (0x2000, 0x200a),
   (0x2028, 0x2029), (0x202f, 0x202f), (0x205f, 0x205f), (0x3000, 0x3000)]

/-- Whether a character is white space. -/
def isBlank (c : Char) : Bool := inRanges c.toNat blankTable

/-- A text without the white space it begins with. -/
def trimStart (cs : List Char) : List Char := cs.dropWhile isBlank

/-- A text without the white space it ends with. -/
def trimEnd (cs : List Char) : List Char := (cs.reverse.dropWhile isBlank).reverse

/-- A text without the white space at its two ends. -/
def trimChars (cs : List Char) : List Char := trimEnd (trimStart cs)

/-- A text without the white space at its two ends. -/
def trim (s : String) : String := String.ofList (trimChars s.toList)

/-- Whether a text is empty or white space only. -/
def isBlankText (s : String) : Bool := s.toList.all isBlank

/-- The words of a text: what stands between runs of white space. -/
def words (cs : List Char) : List (List Char) :=
  (splitWhere isBlank cs).filter (fun word => !word.isEmpty)

end SongLibrary.Text
