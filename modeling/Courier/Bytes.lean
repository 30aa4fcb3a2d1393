/-!
# Byte strings

Payloads are lists of bytes. A text is carried by its UTF-8 bytes, and reading it back
refuses every byte string that is not valid UTF-8.
-/

namespace Courier

abbrev Bytes := List UInt8

namespace Bytes

def ofString (s : String) : Bytes :=
  s.toByteArray.data.toList

/-- The text that the bytes are the UTF-8 form of. -/
def text? (bs : Bytes) : Option String :=
  String.fromUTF8? ⟨⟨bs⟩⟩

theorem text?_ofString (s : String) : text? (ofString s) = some s := by
  have h : (⟨⟨s.toByteArray.data.toList⟩⟩ : ByteArray) = s.toByteArray := by simp
  simp only [text?, ofString, h, String.fromUTF8?, s.isValidUTF8, dif_pos]
  rfl

theorem ofString_of_text? {bs : Bytes} {s : String} (h : text? bs = some s) : ofString s = bs := by
  unfold text? String.fromUTF8? at h
  split at h
  · cases h
    rfl
  · cases h

end Bytes

end Courier
