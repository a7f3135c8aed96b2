/-
Texts as sequences of code points, surrogates included, and what Python's `int` makes of the
characters beyond ASCII: blanks become spaces, and decimal digits of any script ASCII digits.
-/
import MuxivoConsole.Text.Integers

namespace Text

/-- A Python `str`: its code points. -/
abbrev Str := List Nat

instance : LawfulBEq Str :=
  inferInstanceAs (LawfulBEq (List Nat))

/-- The code points of a text of scalar values. -/
def codesOf (text : String) : Str :=
  text.toList.map Char.toNat

theorem codesOf_injective {first second : String} (hcodes : codesOf first = codesOf second) :
    first = second := by
  have hlists : first.toList = second.toList :=
    List.map_injective_iff.mpr (fun _ _ => Char.toNat_inj.mp) hcodes
  exact String.toList_inj.mp hlists

/-- `str.isspace` of one code point -/
def isSpaceCode (code : Nat) : Bool :=
  (0x09 ≤ code && code ≤ 0x0d) || (0x1c ≤ code && code ≤ 0x20) || code == 0x85 ||
    code == 0xa0 || code == 0x1680 || (0x2000 ≤ code && code ≤ 0x200a) ||
    code == 0x2028 || code == 0x2029 || code == 0x202f || code == 0x205f || code == 0x3000

/-- `str.strip` -/
def stripCodes (codes : List Nat) : List Nat :=
  (codes.dropWhile isSpaceCode).rdropWhile isSpaceCode

/-- The zeros of Unicode 15; the other decimal digits of a script follow its zero. -/
def decimalZeros : List Nat :=
  [0x30, 0x660, 0x6f0, 0x7c0, 0x966, 0x9e6, 0xa66, 0xae6, 0xb66, 0xbe6, 0xc66, 0xce6, 0xd66, 0xde6,
    0xe50, 0xed0, 0xf20, 0x1040, 0x1090, 0x17e0, 0x1810, 0x1946, 0x19d0, 0x1a80, 0x1a90, 0x1b50,
    0x1bb0, 0x1c40, 0x1c50, 0xa620, 0xa8d0, 0xa900, 0xa9d0, 0xa9f0, 0xaa50, 0xabf0, 0xff10, 0x104a0,
    0x10d30, 0x11066, 0x110f0, 0x11136, 0x111d0, 0x112f0, 0x11450, 0x114d0, 0x11650, 0x116c0,
    0x11730, 0x118e0, 0x11950, 0x11c50, 0x11d50, 0x11da0, 0x11f50, 0x16a60, 0x16ac0, 0x16b50,
    0x1d7ce, 0x1d7d8, 0x1d7e2, 0x1d7ec, 0x1d7f6, 0x1e140, 0x1e2f0, 0x1e4f0, 0x1e950, 0x1fbf0]

/-- Whether the code point is one of the ten digits from `first` on. -/
def inBlock (code first : Nat) : Bool :=
  first ≤ code && code ≤ first + 9

/-- The value of a decimal digit of any script. -/
def decimalValue? (code : Nat) : Option Nat :=
  (decimalZeros.find? (inBlock code)).map (code - ·)

/-- `str.isdecimal` of one code point -/
def isDecimalCode (code : Nat) : Bool :=
  (decimalValue? code).isSome

/-- A character as `int` and `float` read it; a question mark stands for what is no part of a
number. -/
def asciiNumeral (code : Nat) : Nat :=
  if code < 127 then code
  else if isSpaceCode code then 32
  else (decimalValue? code).elim 63 (48 + ·)

/-- `int(text)`, with `none` for the `ValueError` -/
def parseInt? (codes : List Nat) : Option Int :=
  int? (codes.map asciiNumeral)

section Digits

variable {code : Nat}

theorem asciiNumeral_of_lt (hascii : code < 127) : asciiNumeral code = code := by
  rw [asciiNumeral, if_pos hascii]

/-- An ASCII text is read as it is. -/
theorem map_asciiNumeral {codes : List Nat} (hascii : ∀ code ∈ codes, code < 127) :
    codes.map asciiNumeral = codes := by
  induction codes with
  | nil => rfl
  | cons head tail ih =>
      rw [List.map_cons, asciiNumeral_of_lt (hascii head List.mem_cons_self),
        ih fun code hcode => hascii code (List.mem_cons_of_mem _ hcode)]

/-- The digits of a block are the ten code points from its zero on. -/
theorem exists_of_decimalValue? {value : Nat} (hvalue : decimalValue? code = some value) :
    ∃ first ∈ decimalZeros, value < 10 ∧ code = first + value := by
  rw [decimalValue?, Option.map_eq_some_iff] at hvalue
  obtain ⟨first, hfirst, rfl⟩ := hvalue
  have hblock := List.find?_some hfirst
  simp only [inBlock, Bool.and_eq_true, decide_eq_true_eq] at hblock
  exact ⟨first, List.mem_of_find?_eq_some hfirst, by omega, by omega⟩

theorem decimalValue?_ascii (hdigit : 48 ≤ code ∧ code ≤ 57) :
    decimalValue? code = some (code - 48) := by
  have hzeros : decimalZeros = 0x30 :: decimalZeros.tail := rfl
  have hfirst : inBlock code 0x30 = true := by
    simp only [inBlock, Bool.and_eq_true, decide_eq_true_eq]
    omega
  rw [decimalValue?, hzeros, List.find?_cons_of_pos hfirst, Option.map_some]

/-- A decimal digit is read as the ASCII digit of its value. -/
theorem asciiNumeral_of_decimal {value : Nat} (hvalue : decimalValue? code = some value) :
    asciiNumeral code = 48 + value := by
  have hzeros : ∀ first ∈ decimalZeros, first = 0x30 ∨ 127 ≤ first := by decide
  have hspaces : ∀ first ∈ decimalZeros, ∀ digit < 10,
      isSpaceCode (first + digit) = false := by decide
  obtain ⟨first, hfirst, hsmall, hcode⟩ := exists_of_decimalValue? hvalue
  by_cases hascii : code < 127
  · rw [asciiNumeral_of_lt hascii, hcode]
    rcases hzeros first hfirst with rfl | hlarge <;> omega
  · have hspace := hspaces first hfirst value hsmall
    rw [← hcode] at hspace
    rw [asciiNumeral, if_neg hascii, if_neg (by simp [hspace]), hvalue]
    rfl

end Digits

end Text
