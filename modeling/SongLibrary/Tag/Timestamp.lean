import SongLibrary.Text.NulSeparated

/-!
# Timestamps

The date of a tag is a timestamp: a year of four digits, then month, day, hour, minute and second of
two digits each, as many of them as are known. Marks stand before the later parts, as in
`2024-05-06T07:08:09`; a timestamp that has neither `-` nor `:` has no mark but the `T`.

Reading is lenient. A blank stands for a digit, one digit does for two before the next mark, and
reading ends without complaint where a part is missing. What makes a timestamp unreadable is a year
that is not complete, and another character in the place of a digit. A text with a character that is
not ASCII is no timestamp at all, so there is nothing in it that cannot be read.
-/

namespace SongLibrary.Timestamp

/-- What came of reading a part of a timestamp. -/
inductive Part where
  /-- There is another character in the place of a digit. -/
  | malformed
  | missing
  /-- The part was read, and `rest` follows it. -/
  | read (rest : List Char)
  deriving DecidableEq, Repr

/-- Whether a character may stand between two parts. -/
def isMark (c : Char) : Bool := c = '-' || c = 'T' || c = ':'

/-- What came of a part before `rest` that has a digit or not. -/
def Part.ending (hasDigit : Bool) (rest : List Char) : Part :=
  if hasDigit then .read rest else .missing

/-- Reads up to `n` more digits of a part. A part with a mark may end early, at the next mark. -/
def readDigits (isMarked hasDigit : Bool) : Nat → List Char → Part
  | n + 1, c :: rest =>
    if c = ' ' then readDigits isMarked hasDigit n rest
    else if c.isDigit then readDigits isMarked true n rest
    else if isMarked && isMark c then .ending hasDigit (c :: rest)
    else .malformed
  | _, rest => .ending hasDigit rest

/-- Reads a part of `n` digits. -/
def readPart (n : Nat) (isMarked : Bool) (cs : List Char) : Part :=
  if cs.length < n then .missing else readDigits isMarked false n cs

/-- Reads a part of two digits behind a mark, if it is to have one. -/
def readMarkedPart (mark : Option Char) (cs : List Char) : Part :=
  match mark, cs with
  | none, _ => readPart 2 false cs
  | some _, [] => .missing
  | some mark, c :: rest => if c = mark then readPart 2 true rest else .missing

/-- Whether the parts with some marks can be read, as far as they are there. -/
def areReadable : List (Option Char) → List Char → Bool
  | [], _ => true
  | mark :: marks, cs =>
    match readMarkedPart mark cs with
    | .malformed => false
    | .missing => true
    | .read rest => areReadable marks rest

/-- The marks of month, day, hour, minute and second. -/
def marks (cs : List Char) : List (Option Char) :=
  let unlessPlain := fun mark => if cs.any (fun c => c = '-' || c = ':') then some mark else none
  [unlessPlain '-', unlessPlain '-', some 'T', unlessPlain ':', unlessPlain ':']

/-- The characters of a whole timestamp; what follows them is passed over. -/
def maxLength : Nat := 19

/-- Whether a text that has the form of a timestamp can be read as one. The empty text can. -/
def isReadable (text : String) : Bool :=
  let whole := Text.dropClosingNuls text.toList
  let cs := whole.take maxLength
  whole.any (fun c => 128 ≤ c.toNat) || cs.isEmpty ||
    match readPart 4 false cs with
    | .read rest => areReadable (marks cs) rest
    | _ => false

end SongLibrary.Timestamp
