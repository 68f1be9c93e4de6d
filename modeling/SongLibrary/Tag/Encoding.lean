import SongLibrary.Tag.Error
import SongLibrary.Text.Bytes
import SongLibrary.Text.Units

/-!
# Encodings of texts in frames

A text in a frame is a run of units, each of one byte or two. A unit of zeros ends a text or
separates two of them.
-/

namespace SongLibrary

/-- How a text is written in a frame. -/
inductive TextEncoding where
  /-- One byte for each character, which is its number. -/
  | latin
  /-- Two bytes for each unit, behind a mark that says in which order they come. -/
  | markedUnits
  /-- Two bytes for each unit, the higher first. -/
  | units
  | utf8
  deriving DecidableEq, Repr

namespace TextEncoding

/-- The encoding that a byte at the start of a frame names. -/
def ofByte : UInt8 → Except TagError TextEncoding
  | 0 => .ok .latin
  | 1 => .ok .markedUnits
  | 2 => .ok .units
  | 3 => .ok .utf8
  | _ => .error .unknownEncoding

/-- Two bytes at a time; one that is left over does not count. -/
def pairs : List UInt8 → List (List UInt8)
  | a :: b :: rest => [a, b] :: pairs rest
  | _ => []

/-- The units of some bytes. -/
def split (e : TextEncoding) (bytes : List UInt8) : List (List UInt8) :=
  match e with
  | .latin | .utf8 => bytes.map ([·])
  | .markedUnits | .units => pairs bytes

/-- Whether a unit is made of zeros. -/
def isZero (unit : List UInt8) : Bool := unit.all (· == 0)

/-- Units without the zeros at the end, if two or more stand before them. -/
def dropClosing (units : List (List UInt8)) : List (List UInt8) :=
  let whole := (units.reverse.dropWhile isZero).reverse
  if 2 ≤ whole.length then whole else units

/-- The number that the bytes of a unit write, the highest first. -/
def value (unit : List UInt8) : Nat := unit.foldl (fun high byte => 256 * high + byte.toNat) 0

/-- The text of units of two bytes. -/
def ofPairs (units : List (List UInt8)) : Except TagError String :=
  match Text.ofUnits? (units.map value) with
  | some cs => .ok (String.ofList cs)
  | none => .error .notUnits

/-- The text of some units. -/
def decode (e : TextEncoding) (units : List (List UInt8)) : Except TagError String :=
  match e, units with
  | .latin, _ => .ok (String.ofList (units.map (fun unit => Char.ofNat (value unit))))
  | .utf8, _ =>
    match Text.ofBytes? units.flatten with
    | some text => .ok text
    | none => .error .notText
  | .units, _ => ofPairs units
  | .markedUnits, [] => .ok ""
  | .markedUnits, mark :: units =>
    ofPairs (if mark = [0xFF, 0xFE] then units.map List.reverse else units)

end TextEncoding

end SongLibrary
