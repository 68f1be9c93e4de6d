/-!
# Finding text in text

One text occurs in another if it is a contiguous part of it. The empty text occurs everywhere.
-/

namespace SongLibrary.Text

/-- Whether `needle` is a contiguous part of a text. -/
def occursIn (needle : List Char) : List Char → Bool
  | [] => needle.isEmpty
  | c :: cs => needle.isPrefixOf (c :: cs) || occursIn needle cs

theorem occursIn_iff {needle hay : List Char} : occursIn needle hay = true ↔ needle <:+: hay := by
  induction hay with
  | nil => simp [occursIn]
  | cons c cs ih => simp [occursIn, ih, List.infix_cons_iff]

/-- Whether a text has `part` as a contiguous part. -/
def contains (text part : String) : Bool := occursIn part.toList text.toList

/-- Whether a text begins with `part`. -/
def startsWith (text part : String) : Bool := part.toList.isPrefixOf text.toList

/-- Whether a text ends with `part`. -/
def endsWith (text part : String) : Bool := part.toList.isSuffixOf text.toList

/-- Whether two texts are equal up to the case of ASCII letters. -/
def equalsIgnoringAsciiCase (a b : String) : Bool :=
  a.toList.map Char.toLower == b.toList.map Char.toLower

end SongLibrary.Text
