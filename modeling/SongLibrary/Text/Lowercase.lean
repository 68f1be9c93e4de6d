import SongLibrary.Text.Case

/-!
# Lower-casing

Every character becomes its lower-case form. Two characters need more than a table of letters:

* `İ` becomes two characters, `i` and a combining dot above;
* `Σ` becomes `ς` at the end of a word and `σ` elsewhere. It ends a word when a cased letter comes
  before it and none comes after it, characters that are passed over not counting on either side.
-/

namespace SongLibrary.Text

/-- Whether the first character that is not passed over is a letter with a case. -/
def casedAhead (cs : List Char) : Bool :=
  match cs.dropWhile isCaseIgnorable with
  | [] => false
  | c :: _ => isCased c

/-- Whether the last character that is not passed over is a letter with a case, once `c` is read
too. -/
def casedAfter (casedBefore : Bool) (c : Char) : Bool :=
  if isCaseIgnorable c then casedBefore else isCased c

/-- The lower-case form of one character between its neighbours. -/
def lowerAt (casedBefore : Bool) (c : Char) (rest : List Char) : List Char :=
  if c = 'Σ' then (if casedBefore && !casedAhead rest then ['ς'] else ['σ'])
  else if c = 'İ' then ['i', '\u0307']
  else [lowerChar c]

/-- The lower-case form of a text that follows a cased letter or not. -/
def lowerFrom (casedBefore : Bool) : List Char → List Char
  | [] => []
  | c :: rest => lowerAt casedBefore c rest ++ lowerFrom (casedAfter casedBefore c) rest

/-- The lower-case form of a list of characters. -/
def lowerChars (cs : List Char) : List Char := lowerFrom false cs

/-- The lower-case form of a text. -/
def lowercase (s : String) : String := String.ofList (lowerChars s.toList)

end SongLibrary.Text
