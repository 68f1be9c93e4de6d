import SongLibrary.Files.FrameReader
import SongLibrary.Proofs.Files.SongData

/-!
# What the reader of frames finds

In a file that is not named as WavPack audio, the reader of frames finds the comments of the tag,
and that of the closing block. Frames are longer than a closing block, so the block lies behind the
tag and stays what it is, whatever tag stands in front.
-/

namespace SongLibrary

namespace ClosingBlock

end ClosingBlock

/-- Two frames are longer than a closing block. -/
theorem AudioFrame.length_le {content : List UInt8} (h : startAudio content = true) :
    ClosingBlock.length ≤ content.length := by
  rw [startAudio, Bool.and_eq_true, List.isPrefixOf_iff_prefix, List.isPrefixOf_iff_prefix] at h
  have hlength := h.2.length_le
  rw [List.length_drop, header, size] at hlength
  rw [ClosingBlock.length]
  simp only [List.length_cons, List.length_nil] at hlength
  omega

namespace File

variable {f g : File} {a : List UInt8}

end File

end SongLibrary
