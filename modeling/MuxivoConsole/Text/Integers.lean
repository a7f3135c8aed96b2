/-
Decimal integers as Python's `int` reads them from ASCII text, and as `str` writes them: blanks
around the number, a sign, and single underscores between digits are accepted, more than 4,300
digits are not.
-/
import Mathlib.Data.List.DropRight
import Mathlib.Data.Nat.Digits.Lemmas

namespace Text

/-- The ASCII blanks that `int` skips. -/
def isBlankCode (code : Nat) : Bool :=
  (9 ≤ code && code ≤ 13) || code == 32

/-- The value of an ASCII digit. -/
def digit? (code : Nat) : Option Nat :=
  if 48 ≤ code ∧ code ≤ 57 then some (code - 48) else none

/-- The digits of a text, with single underscores between them. -/
def digits? : List Nat → Option (List Nat)
  | [] => none
  | code :: rest =>
      (digit? code).bind fun digit =>
        match rest with
        | [] => some [digit]
        | next :: others =>
            if next = 95 then (digits? others).map (digit :: ·)
            else (digits? (next :: others)).map (digit :: ·)

/-- `sys.int_info.default_max_str_digits` -/
def maxDigits : Nat := 4300

/-- The number of a text without sign and blanks. -/
def natural? (codes : List Nat) : Option Nat := do
  let digits ← digits? codes
  if digits.length ≤ maxDigits then some (Nat.ofDigits 10 digits.reverse) else none

/-- `int(text)` for ASCII text, with `none` for the `ValueError`. -/
def int? (codes : List Nat) : Option Int :=
  match (codes.dropWhile isBlankCode).rdropWhile isBlankCode with
  | 43 :: digits => (natural? digits).map Int.ofNat
  | 45 :: digits => (natural? digits).map fun number : Nat => -(number : Int)
  | digits => (natural? digits).map Int.ofNat

/-- `str(number)` as ASCII codes -/
def decimal (number : Nat) : List Nat :=
  (Nat.digits 10 number).reverse.map (48 + ·)

/-- `str(value)`; zero is written with one digit. -/
def showNat (number : Nat) : List Nat :=
  if number = 0 then [48] else decimal number

/-- `str(value)` -/
def showInt (value : Int) : List Nat :=
  if value < 0 then 45 :: showNat value.natAbs else showNat value.natAbs

section Showing

variable {number : Nat} {value : Int} {code : Nat}

/-- What is written for a number has digits only. -/
theorem digit_of_mem_showNat (hcode : code ∈ showNat number) : 48 ≤ code ∧ code ≤ 57 := by
  by_cases hzero : number = 0
  · rw [showNat, if_pos hzero] at hcode
    simp only [List.mem_singleton] at hcode
    omega
  · rw [showNat, if_neg hzero, decimal] at hcode
    simp only [List.mem_map, List.mem_reverse] at hcode
    obtain ⟨digit, hdigit, rfl⟩ := hcode
    have hsmall := Nat.digits_lt_base (by decide : 1 < 10) hdigit
    omega

theorem showNat_ne_nil : showNat number ≠ [] := by
  by_cases hzero : number = 0
  · simp [showNat, hzero]
  · rw [showNat, if_neg hzero, decimal]
    simp [Nat.digits_ne_nil_iff_ne_zero.mpr hzero]

/-- The digits of plain digits are their values. -/
theorem digits?_of_digits {codes : List Nat} (hne : codes ≠ [])
    (hdigits : ∀ code ∈ codes, 48 ≤ code ∧ code ≤ 57) :
    digits? codes = some (codes.map (· - 48)) := by
  induction codes with
  | nil => exact absurd rfl hne
  | cons head tail ih =>
      have hhead := hdigits head List.mem_cons_self
      have hdigit : digit? head = some (head - 48) := by
        rw [digit?, if_pos hhead]
      cases tail with
      | nil => simp [digits?, hdigit]
      | cons next others =>
          have hnext := hdigits next (by simp)
          have hrest := ih (by simp) fun code hcode => hdigits code (by simp [hcode])
          have hother : next ≠ 95 := by omega
          rw [digits?, hdigit, Option.bind_some]
          simp only [if_neg hother, hrest, Option.map_some, List.map_cons]

theorem showNat_eq_digits (hpositive : number ≠ 0) :
    showNat number = (Nat.digits 10 number).reverse.map (48 + ·) := by
  rw [showNat, if_neg hpositive, decimal]

/-- The digits that are written have the value of the number. -/
theorem ofDigits_showNat (number : Nat) :
    Nat.ofDigits 10 ((showNat number).map (· - 48)).reverse = number := by
  by_cases hzero : number = 0
  · rw [hzero]
    rfl
  · rw [showNat_eq_digits hzero, List.map_map]
    have hback : (fun code => code - 48) ∘ (fun digit => 48 + digit) = id := by
      funext digit
      simp
    rw [hback, List.map_id, List.reverse_reverse, Nat.ofDigits_digits]

theorem showNat_injective : Function.Injective showNat := by
  intro first second hshown
  rw [← ofDigits_showNat first, hshown, ofDigits_showNat second]

theorem showInt_injective : Function.Injective showInt := by
  intro first second hshown
  have hsign (number rest : Nat) (hcons : showNat number = 45 :: showNat rest) : False := by
    have hmem : 45 ∈ showNat number := by simp [hcons]
    have hdigit := digit_of_mem_showNat hmem
    omega
  unfold showInt at hshown
  split_ifs at hshown with hfirst hsecond hsecond
  · have hsize := showNat_injective (List.cons.inj hshown).2
    omega
  · exact (hsign _ _ hshown.symm).elim
  · exact (hsign _ _ hshown).elim
  · have hsize := showNat_injective hshown
    omega

/-- A number is read back from its digits, if they are not too many. -/
theorem natural?_showNat (hlength : (showNat number).length ≤ maxDigits) :
    natural? (showNat number) = some number := by
  have hdigits := digits?_of_digits (@showNat_ne_nil number)
    fun code hcode => digit_of_mem_showNat hcode
  rw [natural?, hdigits, Option.bind_eq_bind, Option.bind_some, List.length_map, if_pos hlength,
    ofDigits_showNat]

/-- Text without blanks at its ends is not trimmed. -/
theorem trim_eq_self {codes : List Nat} (hsolid : ∀ code ∈ codes, isBlankCode code = false) :
    (codes.dropWhile isBlankCode).rdropWhile isBlankCode = codes := by
  have hleft : codes.dropWhile isBlankCode = codes := by
    cases codes with
    | nil => rfl
    | cons head tail => simp [hsolid head List.mem_cons_self]
  rw [hleft, List.rdropWhile_eq_self_iff]
  intro hne
  simp [hsolid _ (List.getLast_mem hne)]

/-- What is written for an integer is ASCII. -/
theorem lt_of_mem_showInt (hcode : code ∈ showInt value) : code < 128 := by
  unfold showInt at hcode
  split_ifs at hcode
  · rcases List.mem_cons.mp hcode with rfl | hcode
    · decide
    · have hdigit := digit_of_mem_showNat hcode
      omega
  · have hdigit := digit_of_mem_showNat hcode
    omega

theorem showInt_solid : ∀ code ∈ showInt value, isBlankCode code = false := by
  intro code hcode
  have hnat : ∀ code ∈ showNat value.natAbs, isBlankCode code = false := by
    intro code hcode
    have hdigit := digit_of_mem_showNat hcode
    simp only [isBlankCode, Bool.or_eq_false_iff, Bool.and_eq_false_iff, decide_eq_false_iff_not,
      beq_eq_false_iff_ne, ne_eq]
    omega
  by_cases hnegative : value < 0
  · rw [showInt, if_pos hnegative] at hcode
    rcases List.mem_cons.mp hcode with rfl | hcode
    · decide
    · exact hnat code hcode
  · rw [showInt, if_neg hnegative] at hcode
    exact hnat code hcode

/-- An integer is read back from its text. -/
theorem int?_showInt (hlength : (showNat value.natAbs).length ≤ maxDigits) :
    int? (showInt value) = some value := by
  have hread := natural?_showNat hlength
  rw [int?, trim_eq_self showInt_solid]
  by_cases hnegative : value < 0
  · rw [showInt, if_pos hnegative]
    change (natural? (showNat value.natAbs)).map (fun number : Nat => -(number : Int)) = some value
    rw [hread, Option.map_some, Option.some.injEq]
    omega
  · rw [showInt, if_neg hnegative]
    cases hcodes : showNat value.natAbs with
    | nil => exact absurd hcodes showNat_ne_nil
    | cons head tail =>
        have hmem : head ∈ showNat value.natAbs := by simp [hcodes]
        have hhead := digit_of_mem_showNat hmem
        rw [hcodes] at hread
        split
        · rename_i heq
          simp only [List.cons.injEq] at heq
          omega
        · rename_i heq
          simp only [List.cons.injEq] at heq
          omega
        · rw [hread]
          simp only [Option.map_some, Option.some.injEq, Int.ofNat_eq_natCast]
          omega

/-- Numbers below this bound have few enough digits. -/
theorem length_showNat_le (hbound : number < 10 ^ maxDigits) :
    (showNat number).length ≤ maxDigits := by
  by_cases hzero : number = 0
  · rw [hzero, showNat, if_pos rfl]
    decide
  · rw [showNat_eq_digits hzero, List.length_map, List.length_reverse]
    exact (Nat.digits_length_le_iff (by decide) number).mpr hbound

end Showing

end Text
