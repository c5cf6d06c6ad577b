/-!
# UTF-8

The octets of a text and the text of octets. Reading is strict: octets that are no well-formed
UTF-8 (overlong forms, surrogates, code points above U+10FFFF, cut sequences) are no text.
-/

namespace DynProto

/-- A sequence of octets. -/
abbrev Bytes := List UInt8

namespace Text

/-- The octets of a text. -/
def utf8 (text : String) : Bytes :=
  text.toByteArray.data.toList

/-- The text whose octets these are, if they are well-formed. -/
def ofUtf8? (bytes : Bytes) : Option String :=
  String.fromUTF8? ⟨bytes.toArray⟩

/-- The octets of a text read back as that text. -/
theorem ofUtf8?_utf8 (text : String) : ofUtf8? (utf8 text) = some text := by
  have h : (⟨text.toByteArray.data.toList.toArray⟩ : ByteArray) = text.toByteArray := by simp
  simp only [ofUtf8?, utf8, String.fromUTF8?, h]
  exact dif_pos text.isValidUTF8

end Text

end DynProto
