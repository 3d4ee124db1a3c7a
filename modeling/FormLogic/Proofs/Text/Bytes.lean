import FormLogic.Text.Position

/-!
# FormLogic.Proofs.Text.Bytes

The bytes of a text in UTF-8.
-/

namespace FormLogic.Text

/-- The bytes of a text. -/
def bytes (s : List Char) : List UInt8 := s.flatMap String.utf8EncodeChar

@[simp] theorem bytes_nil : bytes [] = [] := rfl

@[simp] theorem bytes_append (s t : List Char) : bytes (s ++ t) = bytes s ++ bytes t :=
  List.flatMap_append

@[simp] theorem length_bytes (s : List Char) : (bytes s).length = byteLength s := by
  induction s with
  | nil => rfl
  | cons c s ih =>
    show (String.utf8EncodeChar c ++ bytes s).length = _
    rw [List.length_append, ih, String.length_utf8EncodeChar, byteLength_cons]

/-- The bytes of a string are those of its characters. -/
theorem toUTF8_eq_bytes (s : String) : s.toUTF8.data.toList = bytes s.toList := by
  have hlist : ∀ cs, (String.ofList cs).toUTF8.data.toList = bytes cs := by
    intro cs
    simp [List.utf8Encode, bytes]
  simpa using hlist s.toList

theorem byteLength_toList (s : String) : byteLength s.toList = s.utf8ByteSize := by
  rw [← length_bytes, ← toUTF8_eq_bytes]
  exact String.size_toByteArray

end FormLogic.Text
