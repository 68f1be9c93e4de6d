import SongLibrary.Json.Basic
import SongLibrary.Text.Units

/-!
# The tokens of a JSON text

`lex` cuts a text into tokens in one pass, with a `Mode` that says what stands half-read. A token
is kept even when it has no value, a number beyond the doubles or a string with an unpaired
surrogate, because such a token matters only where its value is asked for.
-/

namespace SongLibrary.Json

/-- A token. Numbers and strings carry the value they denote, if there is one. -/
inductive Token where
  | openArray
  | closeArray
  | openObject
  | closeObject
  | colon
  | comma
  | null
  | bool (value : Bool)
  | number (value : Option Number)
  | string (value : Option String)
  deriving DecidableEq

/-- A piece of a string: a character, or the 16-bit unit of a `\u` escape. -/
inductive Piece where
  | char (c : Char)
  | unit (n : Nat)

namespace Piece

/-- The characters of a string; `none` if a surrogate stands without its partner. -/
def decode : List Piece → Option (List Char)
  | [] => some []
  | .char c :: rest => (decode rest).map (c :: ·)
  | .unit high :: .unit low :: rest =>
    if Text.isHighSurrogate high then
      if Text.isLowSurrogate low then (decode rest).map (Text.ofSurrogates high low :: ·) else none
    else if Text.isLowSurrogate high then none
    else (decode (.unit low :: rest)).map (Char.ofNat high :: ·)
  | .unit n :: rest =>
    if Text.isHighSurrogate n || Text.isLowSurrogate n then none
    else (decode rest).map (Char.ofNat n :: ·)

end Piece

/-- The blanks that may stand between tokens. -/
def isSpace (c : Char) : Bool := c == ' ' || c == '\t' || c == '\n' || c == '\r'

/-- The token of a single punctuation character. -/
def punctuation? : Char → Option Token
  | '[' => some .openArray
  | ']' => some .closeArray
  | '\x7b' => some .openObject
  | '\x7d' => some .closeObject
  | ':' => some .colon
  | ',' => some .comma
  | _ => none

/-- Whether a character ends a literal name or a number. -/
def isDelimiter (c : Char) : Bool := isSpace c || (punctuation? c).isSome || c == '"'

/-- The value of a hexadecimal digit of either case. -/
def hexValue? (c : Char) : Option Nat :=
  if c.isDigit then some (c.toNat - '0'.toNat)
  else if 'a' ≤ c ∧ c ≤ 'f' then some (c.toNat - 'a'.toNat + 10)
  else if 'A' ≤ c ∧ c ≤ 'F' then some (c.toNat - 'A'.toNat + 10)
  else none

/-- The character that stands behind a backslash for itself or for a control character. -/
def unescape? : Char → Option Char
  | '"' => some '"'
  | '\\' => some '\\'
  | '/' => some '/'
  | 'b' => some '\x08'
  | 'f' => some '\x0c'
  | 'n' => some '\n'
  | 'r' => some '\r'
  | 't' => some '\t'
  | _ => none

/-- The token of a run without delimiters: one of the three names, or a number. -/
def wordToken? (word : List Char) : Option Token :=
  match String.ofList word with
  | "null" => some .null
  | "true" => some (.bool true)
  | "false" => some (.bool false)
  | _ => do
    let numeral ← Numeral.ofChars? word
    if Number.wellFormed numeral then some (.number (Number.ofNumeral? numeral)) else none

/-- What stands half-read; the parts read so far are in reverse. -/
inductive Mode where
  /-- Nothing: the next character starts something. -/
  | between
  /-- A name or a number. -/
  | word (read : List Char)
  /-- A string. -/
  | string (read : List Piece)
  /-- A string after a backslash. -/
  | escape (read : List Piece)
  /-- A string within a `\u` escape that lacks `missing + 1` digits. -/
  | unit (read : List Piece) (missing : Nat) (value : Nat)

/-- Reads a character with nothing half-read. The tokens found so far are in reverse. -/
def start (c : Char) (found : List Token) : Mode × List Token :=
  if isSpace c then (.between, found)
  else
    match punctuation? c with
    | some token => (.between, token :: found)
    | none => if c = '"' then (.string [], found) else (.word [c], found)

/-- Reads a character. -/
def readChar (c : Char) (found : List Token) : Mode → Option (Mode × List Token)
  | .between => some (start c found)
  | .word read =>
    if isDelimiter c then (wordToken? read.reverse).map (fun token => start c (token :: found))
    else some (.word (c :: read), found)
  | .string read =>
    if c = '"' then
      some (.between, .string ((Piece.decode read.reverse).map String.ofList) :: found)
    else if c = '\\' then some (.escape read, found)
    else if c < ' ' then none
    else some (.string (.char c :: read), found)
  | .escape read =>
    if c = 'u' then some (.unit read 3 0, found)
    else (unescape? c).map (fun d => (.string (.char d :: read), found))
  | .unit read missing value => do
    let value := 16 * value + (← hexValue? c)
    match missing with
    | 0 => return (.string (.unit value :: read), found)
    | missing + 1 => return (.unit read missing value, found)

/-- Ends the text: a word may still stand half-read, a string may not. -/
def finish (found : List Token) : Mode → Option (List Token)
  | .between => some found.reverse
  | .word read => (wordToken? read.reverse).map (fun token => (token :: found).reverse)
  | _ => none

/-- The tokens of the rest of a text. -/
def lexFrom (mode : Mode) (found : List Token) : List Char → Option (List Token)
  | [] => finish found mode
  | c :: cs =>
    match readChar c found mode with
    | none => none
    | some (mode, found) => lexFrom mode found cs

/-- The tokens of a text; `none` if it cannot be cut into tokens. -/
def lex (cs : List Char) : Option (List Token) := lexFrom .between [] cs

/-! ## Writing tokens -/

/-- The lower-case hexadecimal digit of a number below sixteen. -/
def hexDigit (n : Nat) : Char := if n < 10 then Char.ofNat (48 + n) else Char.ofNat (87 + n)

/-- A character inside a string: quotes, backslashes and control characters are escaped, anything
else stands for itself. -/
def escapeChar (c : Char) : List Char :=
  match c with
  | '"' => ['\\', '"']
  | '\\' => ['\\', '\\']
  | '\x08' => ['\\', 'b']
  | '\x0c' => ['\\', 'f']
  | '\n' => ['\\', 'n']
  | '\r' => ['\\', 'r']
  | '\t' => ['\\', 't']
  | c =>
    if c < ' ' then ['\\', 'u', '0', '0', hexDigit (c.toNat / 16), hexDigit (c.toNat % 16)] else [c]

/-- A string in quotes. -/
def quote (s : String) : List Char := '"' :: s.toList.flatMap escapeChar ++ ['"']

end SongLibrary.Json
