import SongLibrary.Files.AudioFrame
import SongLibrary.Files.SongData
import SongLibrary.Tag.Timestamp

/-!
# A reader of frames

The program reads files of audio frames. Their comments are those of the tag at the start, each of
which may hold several texts, and that of the closing block. A file that does not start with frames
behind its tag cannot be read, nor one whose tag has a date that cannot be read.

A file that is named as WavPack audio is taken for that unless it is too short or starts like audio
of another kind. Then the tag at its start does not count, but the closing block does.
-/

namespace SongLibrary

namespace File

/-- The marks that other audio than frames and WavPack starts with. -/
def otherMarks : List String := ["MAC", "fLa", "MPC", "MP+"]

/-- The least size of a file, its closing block apart, that is taken for WavPack audio. -/
def leastWavPack : Nat := 32

/-- Whether a file is taken for WavPack audio when its name says that it is. -/
def isWavPack (f : File) : Bool :=
  let closing := ((ClosingBlock.of? f.content).elim 0 List.length)
  leastWavPack + closing ≤ f.size && !AudioFrame.header.isPrefixOf f.content &&
    otherMarks.all (fun mark => !(Text.bytes mark).isPrefixOf f.content)

/-- The comments of the closing block of a file. -/
def closingTexts (f : File) : List String :=
  (ClosingBlock.of? f.content).toList.map ClosingBlock.comment

/-- Whether frames follow the tag of a file. -/
def hasFrames (f : File) : Bool :=
  match f.afterTag with
  | .ok content => AudioFrame.startAudio content
  | .error _ => false

/-- The texts of the comments of a file of frames. -/
def frameTexts? (f : File) : Option (List String) :=
  match f.readTag with
  | .error _ => none
  | .ok none => if f.hasFrames then some f.closingTexts else none
  | .ok (some tag) =>
    if f.hasFrames && tag.date.all Timestamp.isReadable then
      some (tag.comments.flatMap Comment.texts ++ f.closingTexts)
    else none

end File

/-- Whether an extension is that of WavPack audio. -/
def isWavPackExtension (extension : Option String) : Bool :=
  extension.any (fun e => Text.equalsIgnoringAsciiCase e "wv")

/-- The reader of frames, and of WavPack audio as far as it is closed by a block. -/
def frameReader : AudioReader where
  texts? extension f :=
    if isWavPackExtension extension && f.isWavPack then some f.closingTexts else f.frameTexts?

end SongLibrary
