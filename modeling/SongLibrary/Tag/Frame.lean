import SongLibrary.Tag.Basic
import SongLibrary.Tag.Encoding
import SongLibrary.Tag.Header

/-!
# Frames

Behind its header, a tag in a file is a run of frames. A frame has a name, the size of its content,
flags from version 3 on, and the content. A zero in the place of a name ends the tag, and so do
fewer bytes than a frame starts with.

The content of a frame with text starts with the encoding of the text. `Tag.ofBytes?` reads the tag
that content starts with; of frames without text and comments the content is kept as it is.
`Tag.size` is what a tag takes up that is written.
-/

namespace SongLibrary

/-- How the frames of a version are laid out. -/
structure FrameLayout where
  /-- The bytes of a name, and of the size that follows it. -/
  nameLength : Nat
  /-- The bits that a byte of the size counts. -/
  sizeBits : Nat
  /-- The bytes of the flags. -/
  flagLength : Nat
  /-- The flags that have a meaning. -/
  knownFlags : Nat
  encryptedFlag : Nat
  groupedFlag : Nat
  /-- Whether no frame reaches beyond the end of its tag. -/
  isBounded : Bool
  /-- Whether a frame may hold several texts. -/
  holdsSeveral : Bool
  nameLength_pos : 0 < nameLength := by decide
  deriving DecidableEq, Repr

/-- The layout of a version. -/
def FrameLayout.ofVersion : Nat → FrameLayout
  | 2 => { nameLength := 3, sizeBits := 8, flagLength := 0, knownFlags := 0, encryptedFlag := 0,
           groupedFlag := 0, isBounded := true, holdsSeveral := false }
  | 3 => { nameLength := 4, sizeBits := 8, flagLength := 2, knownFlags := 0xE0E0,
           encryptedFlag := 0x40, groupedFlag := 0x20, isBounded := false,
           holdsSeveral := true }
  | _ => { nameLength := 4, sizeBits := 7, flagLength := 2, knownFlags := 0x704F,
           encryptedFlag := 0x04, groupedFlag := 0x40, isBounded := false,
           holdsSeveral := true }

/-- The bytes before the content of a frame. -/
def FrameLayout.headerLength (l : FrameLayout) : Nat := 2 * l.nameLength + l.flagLength

theorem FrameLayout.headerLength_pos (l : FrameLayout) : 0 < l.headerLength := by
  have := l.nameLength_pos
  simp only [headerLength]
  omega

/-- A frame of a tag. -/
structure Frame where
  name : String
  /-- The size of the content, which the file may end before. -/
  size : Nat
  content : List UInt8
  deriving DecidableEq, Repr

namespace Frame

/-- The frame that some bytes of a tag start with, if there is one more. -/
def next? (l : FrameLayout) (bytes : List UInt8) : Except TagError (Option Frame) :=
  let header := bytes.take l.headerLength
  if header.length < l.headerLength ∨ header.head? = some 0 then .ok none
  else
    match Text.ofBytes? (header.take l.nameLength) with
    | none => .error .notText
    | some name =>
      let size := TagHeader.number l.sizeBits ((header.drop l.nameLength).take l.nameLength)
      let flags := TagHeader.number 8 (header.drop (2 * l.nameLength))
      if flags &&& l.knownFlags ≠ flags then .error .unknownFrameFlags
      else if flags &&& l.encryptedFlag ≠ 0 then .error .frameEncrypted
      else if flags &&& l.groupedFlag ≠ 0 then .error .frameGrouped
      else .ok (some ⟨name, size, (bytes.drop l.headerLength).take size⟩)

/-- The text of a frame. Where a frame holds one text only, the first zero ends it. -/
def text (f : Frame) (l : FrameLayout) : Except TagError String := do
  match f.content with
  | [] => throw .frameTooShort
  | encoding :: bytes =>
    let e ← TextEncoding.ofByte encoding
    let units := e.split bytes
    e.decode (if l.holdsSeveral then TextEncoding.dropClosing units
      else units.takeWhile (!TextEncoding.isZero ·))

/-- The comment of a frame: a language, a description that a zero ends, and the text. -/
def comment (f : Frame) : Except TagError Comment := do
  match f.content with
  | [] => throw .frameTooShort
  | encoding :: bytes =>
    let e ← TextEncoding.ofByte encoding
    if bytes.length < Comment.languageSize then throw .frameTooShort
    let language ← TextEncoding.latin.decode (TextEncoding.latin.split
      (bytes.take Comment.languageSize))
    let units := e.split (bytes.drop Comment.languageSize)
    match units.dropWhile (!TextEncoding.isZero ·) with
    | [] => throw .descriptionUnclosed
    | _ :: behind =>
      return ⟨language, ← e.decode (units.takeWhile (!TextEncoding.isZero ·)), ← e.decode behind⟩

/-- A tag with a frame put into it. -/
def addTo (f : Frame) (l : FrameLayout) (t : Tag) : Except TagError Tag := do
  match f.name with
  | "TIT2" | "TT2" => return { t with title := some (← f.text l) }
  | "TPE1" | "TP1" => return { t with artist := some (← f.text l) }
  | "TALB" | "TAL" => return { t with album := some (← f.text l) }
  | "TRCK" | "TRK" => return { t with track := some (← f.text l) }
  | "TPOS" | "TPA" => return { t with disc := some (← f.text l) }
  | "TDRC" => return { t with date := some (← f.text l) }
  | "COMM" | "COM" => return { t with comments := Comment.add t.comments (← f.comment) }
  | name => return { t with others := t.others ++ [⟨name, f.content⟩] }

end Frame

namespace Tag

/-- A tag with the frames in some bytes put into it, of which `left` are still due. -/
def addFrames (l : FrameLayout) (t : Tag) (left : Nat) (bytes : List UInt8) : Except TagError Tag :=
  if left = 0 then .ok t
  else
    match Frame.next? l bytes with
    | .error e => .error e
    | .ok none => .ok t
    | .ok (some f) =>
      match f.addTo l t with
      | .error e => .error e
      | .ok t =>
        t.addFrames l (left - (l.headerLength + f.size)) (bytes.drop (l.headerLength + f.size))
termination_by left
decreasing_by
  have := l.headerLength_pos
  omega

/-- The bytes that a tag takes up when it is written with frames of version 4. -/
def size (t : Tag) : Nat :=
  let header := (FrameLayout.ofVersion 4).headerLength
  let texts := [t.title, t.artist, t.album, t.track, t.disc, t.date].filterMap id
  let text := fun (s : String) => header + 1 + s.utf8ByteSize
  let comment := fun (c : Comment) =>
    header + 1 + Comment.languageSize + c.description.utf8ByteSize + 1 + c.text.utf8ByteSize
  let other := fun (f : OtherFrame) => header + f.content.length
  (texts.map text ++ t.comments.map comment ++ t.others.map other).foldl Nat.add TagHeader.length

/-- The tag that content starts with, if it does. -/
def ofBytes? (content : List UInt8) : Except TagError (Option Tag) := do
  match ← TagHeader.ofBytes? content with
  | none => return none
  | some h =>
    let l := FrameLayout.ofVersion h.major
    let behind := content.drop (TagHeader.length + h.extension)
    return some (← empty.addFrames l h.size (if l.isBounded then behind.take h.size else behind))

end Tag

end SongLibrary
