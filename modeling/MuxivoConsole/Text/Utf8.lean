/-
The UTF-8 bytes of a text, as lists.
-/
import Mathlib.Data.List.Basic

namespace Text

/-- `text.encode("utf-8")` -/
def encodeUtf8 (text : String) : List UInt8 :=
  text.toUTF8.data.toList

/-- `bytes.decode("utf-8")`, with `none` for the `UnicodeDecodeError` -/
def decodeUtf8 (bytes : List UInt8) : Option String :=
  String.fromUTF8? ⟨bytes.toArray⟩

variable {text : String} {byte : UInt8}

@[simp] theorem decodeUtf8_encodeUtf8 : decodeUtf8 (encodeUtf8 text) = some text := by
  have hbytes : (⟨(encodeUtf8 text).toArray⟩ : ByteArray) = text.toByteArray := by
    simp [encodeUtf8]
  rw [decodeUtf8, hbytes, String.fromUTF8?, dif_pos text.isValidUTF8]
  rfl

theorem encodeUtf8_eq_flatMap : encodeUtf8 text = text.toList.flatMap String.utf8EncodeChar := by
  have hbytes : text.toList.utf8Encode = text.toByteArray := String.utf8Encode_toList
  unfold encodeUtf8
  rw [String.toUTF8_eq_toByteArray, ← hbytes]
  simp [List.utf8Encode]

/-- An ASCII byte of a character is the character. -/
theorem eq_of_mem_utf8EncodeChar {character : Char}
    (hmem : byte ∈ String.utf8EncodeChar character) (hascii : byte.toNat < 128) :
    character.toNat = byte.toNat := by
  have hlarge : ∀ value : Nat, 128 ≤ value → value < 256 → byte ≠ UInt8.ofNat value := by
    rintro value hlow hhigh rfl
    rw [UInt8.toNat_ofNat', Nat.mod_eq_of_lt (by omega)] at hascii
    omega
  have hcode : character.toNat = character.val.toNat := rfl
  unfold String.utf8EncodeChar at hmem
  dsimp only at hmem
  split_ifs at hmem with hone htwo hthree
  · rw [List.mem_singleton.mp hmem, UInt8.toNat_ofNat', Nat.mod_eq_of_lt (by omega), hcode]
  all_goals
    exfalso
    simp only [List.mem_cons, List.not_mem_nil, or_false] at hmem
  · rcases hmem with hmem | hmem <;> exact hlarge _ (by omega) (by omega) hmem
  · rcases hmem with hmem | hmem | hmem <;> exact hlarge _ (by omega) (by omega) hmem
  · rcases hmem with hmem | hmem | hmem | hmem <;> exact hlarge _ (by omega) (by omega) hmem

/-- An ASCII byte of a text is one of its characters. -/
theorem exists_of_mem_encodeUtf8 (hmem : byte ∈ encodeUtf8 text) (hascii : byte.toNat < 128) :
    ∃ character ∈ text.toList, character.toNat = byte.toNat := by
  rw [encodeUtf8_eq_flatMap, List.mem_flatMap] at hmem
  obtain ⟨character, hcharacter, hbyte⟩ := hmem
  exact ⟨character, hcharacter, eq_of_mem_utf8EncodeChar hbyte hascii⟩

end Text
