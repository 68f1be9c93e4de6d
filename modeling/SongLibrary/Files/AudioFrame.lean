/-!
# Audio frames

Audio is a run of frames of one size, each of which starts with the same header. Content is taken to
be audio when a second frame follows the first.
-/

namespace SongLibrary.AudioFrame

/-- The header of a frame of MPEG audio, layer III, with 128 kbit/s and 44.1 kHz. -/
def header : List UInt8 := [0xFF, 0xFB, 0x90, 0x00]

/-- The bytes of a frame. -/
def size : Nat := 417

/-- A silent frame with its last byte. -/
def silent (last : UInt8) : List UInt8 := header ++ List.replicate 412 0 ++ [last]

/-- Whether content starts with two frames. -/
def startAudio (content : List UInt8) : Bool :=
  header.isPrefixOf content && header.isPrefixOf (content.drop size)

end SongLibrary.AudioFrame
