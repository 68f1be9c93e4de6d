import SongLibrary.Tag.Error
import SongLibrary.Text.Bytes

/-!
# Tag headers

In a file, a tag starts with ten bytes: the mark `ID3`, the version, a byte of flags, and the size
of what follows in four bytes that count seven bits each. A flag says that an extension of the
header comes before the frames. It starts with its own size, written like that of the tag.
-/

namespace SongLibrary

/-- What the header of a tag says. -/
structure TagHeader where
  major : Nat
  /-- The bytes that the extension of the header takes up. -/
  extension : Nat
  /-- The bytes that the frames take up. -/
  size : Nat
  deriving DecidableEq, Repr

namespace TagHeader

/-- The bytes of a header. -/
def length : Nat := 10

/-- The number that bytes write which count some bits each, the highest first. A byte that is too
large for its bits reaches into those of the one before. -/
def number (bits : Nat) (bytes : List UInt8) : Nat :=
  bytes.foldl (fun high byte => (high <<< bits) ||| byte.toNat) 0

/-- The mark that a header starts with. -/
def mark : List UInt8 := Text.bytes "ID3"

/-- Whether tags of a version can be read. -/
def isSupported (major : Nat) : Bool := 2 ≤ major && major ≤ 4

/-- The flag that says that the header has an extension. In version 2 it says that the frames are
compressed. -/
def extensionFlag : Nat := 0x40

/-- The flags that have a meaning. -/
def knownFlags : Nat := 0xF0

/-- The bytes that an extension has at least. -/
def leastExtension : Nat := 6

/-- The size of the extension that comes behind a header. -/
def extensionSize (behind : List UInt8) : Except TagError Nat :=
  if behind.length < leastExtension then .error .extensionMissing
  else
    let size := number 7 (behind.take 4)
    if size < leastExtension then .error .extensionTooSmall else .ok size

/-- The header that content starts with, if it does. -/
def ofBytes? (content : List UInt8) : Except TagError (Option TagHeader) :=
  if mark.isPrefixOf content then
    match content.drop mark.length with
    | major :: revision :: flags :: a :: b :: c :: d :: behind =>
      let hasExtension := flags.toNat &&& extensionFlag ≠ 0
      if !isSupported major.toNat then .error (.unsupportedVersion major.toNat revision.toNat)
      else if flags.toNat &&& knownFlags ≠ flags.toNat then .error .unknownFlags
      else if hasExtension ∧ major = 2 then .error .compressed
      else do
        let extension ← if hasExtension then extensionSize behind else .ok 0
        return some ⟨major.toNat, extension, number 7 [a, b, c, d] - extension⟩
    | _ => .ok none
  else .ok none

/-- The header that is written for a tag without frames. -/
def ofEmptyTag : List UInt8 := mark ++ [4, 0, 0, 0, 0, 0, 0]

theorem length_ofEmptyTag : ofEmptyTag.length = length := by decide +kernel

end TagHeader

end SongLibrary
