import FormReader.Byte

/-!
# Text and its bytes

Symbols and strings hold text, while the source they are read from is a sequence
of bytes that need not be text at all. `FormReader.Text.ofBytes?` decodes by the
rules of UTF-8 and refuses everything else – a stray continuation byte, a
sequence that is cut short or longer than needed, a surrogate, a number above
U+10FFFF. `FormReader.Text.bytes` is its inverse.
-/

namespace FormReader

namespace Text

/-- The UTF-8 bytes of a text. -/
def bytes (s : String) : List Byte :=
  s.toByteArray.data.toList

/-- **Decoding**: the text whose UTF-8 bytes these are, or `none` when they are not
the bytes of any text. -/
def ofBytes? (bs : List Byte) : Option String :=
  String.fromUTF8? ⟨bs.toArray⟩

@[simp] theorem ofBytes?_bytes (s : String) : ofBytes? (bytes s) = some s := by
  have h : (⟨(bytes s).toArray⟩ : ByteArray) = s.toByteArray := by
    simp [bytes]
  rw [ofBytes?, h, String.fromUTF8?, dif_pos s.isValidUTF8]
  rfl

theorem bytes_of_ofBytes? {bs : List Byte} {s : String} (h : ofBytes? bs = some s) :
    bytes s = bs := by
  unfold ofBytes? String.fromUTF8? at h
  split at h
  · cases h
    simp [bytes, String.fromUTF8]
  · cases h

/-- A text is decoded from its own bytes and from no others. -/
theorem ofBytes?_eq_some_iff {bs : List Byte} {s : String} :
    ofBytes? bs = some s ↔ bytes s = bs :=
  ⟨bytes_of_ofBytes?, by rintro rfl; simp⟩

@[simp] theorem bytes_append (s t : String) : bytes (s ++ t) = bytes s ++ bytes t := by
  simp [bytes, String.toByteArray_append, ByteArray.data_append]

@[simp] theorem bytes_empty : bytes "" = [] := rfl

theorem bytes_eq_nil_iff {s : String} : bytes s = [] ↔ s = "" := by
  constructor
  · intro h
    have := ofBytes?_bytes s
    rw [h, ← bytes_empty, ofBytes?_bytes] at this
    exact (Option.some.inj this).symm
  · rintro rfl; rfl

theorem length_bytes (s : String) : (bytes s).length = s.utf8ByteSize :=
  Array.length_toList

end Text

end FormReader
