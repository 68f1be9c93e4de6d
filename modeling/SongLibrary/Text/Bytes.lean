/-!
# Texts as bytes

The content of a file is a list of bytes. A text is written as its bytes in UTF-8, and bytes that
are not valid UTF-8 are no text.
-/

namespace SongLibrary.Text

/-- The bytes of a text. -/
def bytes (text : String) : List UInt8 := text.toUTF8.data.toList

/-- The text of some bytes, if they are one. -/
def ofBytes? (bytes : List UInt8) : Option String := String.fromUTF8? ⟨bytes.toArray⟩

/-- What is written as bytes is read back. -/
theorem ofBytes?_bytes (text : String) : ofBytes? (bytes text) = some text := by
  simp [ofBytes?, bytes, String.fromUTF8?, String.toUTF8, String.fromUTF8, text.isValidUTF8]

end SongLibrary.Text
