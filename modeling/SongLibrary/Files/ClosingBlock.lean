import SongLibrary.Text.Bytes

/-!
# Closing blocks

At the end of a file there may be a block of 128 bytes that starts with `TAG`, an older form of tag
with texts of fixed length. In front of it there may be a second one of 227 bytes that starts with
`TAG+`. Neither is audio.
-/

namespace SongLibrary.ClosingBlock

/-- The bytes of a closing block. -/
def length : Nat := 128

/-- The bytes of a closing block and of the one in front of it. -/
def lengthOfBoth : Nat := 355

/-- Whether a mark stands at a position. -/
def hasMarkAt (content : List UInt8) (position : Nat) (mark : String) : Bool :=
  (Text.bytes mark).isPrefixOf (content.drop position)

/-- The closing block of some content. -/
def of? (content : List UInt8) : Option (List UInt8) :=
  let size := content.length
  if length ≤ size ∧ hasMarkAt content (size - length) "TAG" then
    some (content.drop (size - length))
  else none

/-- The size of what stands at the end of some content and is not audio. -/
def size (content : List UInt8) : Nat :=
  if (of? content).isNone then 0
  else
    let size := content.length
    if lengthOfBoth ≤ size ∧ hasMarkAt content (size - lengthOfBoth) "TAG+" then lengthOfBoth
    else length

/-- The comment of a closing block. It has thirty bytes, or less if its last one is the number of a
track, which a zero stands in front of. Control characters do not count. -/
def comment (block : List UInt8) : String :=
  let field := (block.drop 97).take 30
  let text :=
    match field.drop 28 with
    | [zero, track] => if zero = 0 ∧ track ≠ 0 then field.take 28 else field
    | _ => field
  String.ofList ((text.filter (0x1F < ·)).map (fun byte => Char.ofNat byte.toNat))

end SongLibrary.ClosingBlock
