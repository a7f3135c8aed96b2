/-
The Redis serialization protocol: values, how they are written, and which of them are well formed.
Lengths count bytes, integers have 64 bits, and a simple string is one line.
-/
import MuxivoConsole.Text.Integers
import MuxivoConsole.Text.Utf8

namespace Resp

/-- `b"\r\n"` -/
def crlf : List UInt8 := [13, 10]

/-- A number in ASCII digits. -/
def lengthBytes (length : Nat) : List UInt8 :=
  (Text.showNat length).map UInt8.ofNat

/-- An integer in ASCII digits, with its sign. -/
def integerBytes (value : Int) : List UInt8 :=
  (Text.showInt value).map UInt8.ofNat

inductive Value where
  | simple (text : String)
  | integer (value : Int)
  | nullBulk
  | bulk (text : String)
  | nullArray
  | array (items : List Value)

namespace Value

mutual

/-- The bytes of a value. -/
def wire : Value → List UInt8
  | simple text => 43 :: Text.encodeUtf8 text ++ crlf
  | integer value => 58 :: integerBytes value ++ crlf
  | nullBulk => [36, 45, 49, 13, 10]
  | bulk text => 36 :: lengthBytes (Text.encodeUtf8 text).length ++ crlf ++
      Text.encodeUtf8 text ++ crlf
  | nullArray => [42, 45, 49, 13, 10]
  | array items => 42 :: lengthBytes items.length ++ crlf ++ wireAll items

/-- The bytes of values, one after the other. -/
def wireAll : List Value → List UInt8
  | [] => []
  | value :: values => value.wire ++ wireAll values

end

/-- The largest length of a list or a string in memory. -/
def maxLength : Nat := 2 ^ 63 - 1

/-- A simple string has no line break, an integer 64 bits. -/
inductive WellFormed : Value → Prop where
  | simple {text : String} :
      (∀ character ∈ text.toList, character ≠ '\r' ∧ character ≠ '\n') →
        WellFormed (.simple text)
  | integer {value : Int} : -2 ^ 63 ≤ value → value < 2 ^ 63 → WellFormed (.integer value)
  | nullBulk : WellFormed .nullBulk
  | bulk {text : String} : (Text.encodeUtf8 text).length ≤ maxLength → WellFormed (.bulk text)
  | nullArray : WellFormed .nullArray
  | array {items : List Value} : items.length ≤ maxLength →
      (∀ item ∈ items, WellFormed item) → WellFormed (.array items)

/-- The value can be read by `frames` nested calls through a buffer of lines up to `limit`
bytes: simple strings fit in with their carriage return. -/
inductive Fits (limit : Nat) : Nat → Value → Prop where
  | simple {frames : Nat} {text : String} :
      (Text.encodeUtf8 text).length + 1 ≤ limit → Fits limit (frames + 1) (.simple text)
  | integer {frames : Nat} {value : Int} : Fits limit (frames + 1) (.integer value)
  | nullBulk {frames : Nat} : Fits limit (frames + 1) .nullBulk
  | bulk {frames : Nat} {text : String} : Fits limit (frames + 1) (.bulk text)
  | nullArray {frames : Nat} : Fits limit (frames + 1) .nullArray
  | array {frames : Nat} {items : List Value} : (∀ item ∈ items, Fits limit frames item) →
      Fits limit (frames + 1) (.array items)

end Value

section Lines

variable {length : Nat} {value : Int}

theorem mem_lengthBytes {byte : UInt8} (hbyte : byte ∈ lengthBytes length) :
    48 ≤ byte.toNat ∧ byte.toNat ≤ 57 := by
  obtain ⟨code, hcode, rfl⟩ := List.mem_map.mp hbyte
  have hdigit := Text.digit_of_mem_showNat hcode
  rw [UInt8.toNat_ofNat', Nat.mod_eq_of_lt (by omega)]
  exact hdigit

/-- The line of an integer has digits, or a sign and digits. -/
theorem mem_integerBytes {byte : UInt8} (hbyte : byte ∈ integerBytes value) :
    byte.toNat = 45 ∨ 48 ≤ byte.toNat ∧ byte.toNat ≤ 57 := by
  by_cases hnegative : value < 0
  · rw [integerBytes, Text.showInt, if_pos hnegative] at hbyte
    rcases List.mem_cons.mp hbyte with rfl | hbyte
    · exact Or.inl rfl
    · exact Or.inr (mem_lengthBytes hbyte)
  · rw [integerBytes, Text.showInt, if_neg hnegative] at hbyte
    exact Or.inr (mem_lengthBytes hbyte)

theorem integerBytes_natCast : integerBytes (length : Int) = lengthBytes length := by
  have hpositive : ¬ (length : Int) < 0 := by omega
  rw [integerBytes, Text.showInt, if_neg hpositive, Int.natAbs_natCast, lengthBytes]

/-- The codes of an integer survive as bytes. -/
theorem map_toNat_integerBytes :
    (integerBytes value).map UInt8.toNat = Text.showInt value := by
  have hcodes : ∀ code ∈ Text.showInt value, (UInt8.toNat ∘ UInt8.ofNat) code = code := by
    intro code hcode
    have hsmall := Text.lt_of_mem_showInt hcode
    rw [Function.comp, UInt8.toNat_ofNat', Nat.mod_eq_of_lt (by omega)]
  rw [integerBytes, List.map_map, List.map_congr_left hcodes, List.map_id']

theorem length_integerBytes_le (hbound : value.natAbs < 10 ^ Text.maxDigits) :
    (integerBytes value).length ≤ Text.maxDigits + 1 := by
  have hdigits := Text.length_showNat_le hbound
  rw [integerBytes, List.length_map, Text.showInt]
  split_ifs
  · simpa using hdigits
  · omega

theorem lt_of_le_maxLength (hlength : length ≤ Value.maxLength) : length < 10 ^ Text.maxDigits := by
  have hsmall : Value.maxLength < 10 ^ 20 := by decide
  have hlarge : 10 ^ 20 ≤ 10 ^ Text.maxDigits := Nat.pow_le_pow_right (by decide) (by decide)
  omega

theorem natAbs_lt_of_64_bits (hlow : -2 ^ 63 ≤ value) (hhigh : value < 2 ^ 63) :
    value.natAbs < 10 ^ Text.maxDigits := by
  have hlarge : 10 ^ 20 ≤ 10 ^ Text.maxDigits := Nat.pow_le_pow_right (by decide) (by decide)
  omega

end Lines

end Resp
