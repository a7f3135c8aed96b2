/-
Hexadecimal integers as `int(text, 16)` reads them: blanks around the number, a sign, the prefix
`0x`, and single underscores between digits are accepted.
-/
import MuxivoConsole.Text.Unicode

namespace Text

/-- The value of a hexadecimal digit. -/
def hexDigit? (code : Nat) : Option Nat :=
  if 48 ≤ code ∧ code ≤ 57 then some (code - 48)
  else if 65 ≤ code ∧ code ≤ 70 then some (code - 55)
  else if 97 ≤ code ∧ code ≤ 102 then some (code - 87)
  else none

/-- The digits of a text, with single underscores between them. -/
def hexDigits? : List Nat → Option (List Nat)
  | [] => none
  | code :: rest =>
      (hexDigit? code).bind fun digit =>
        match rest with
        | [] => some [digit]
        | next :: others =>
            if next = 95 then (hexDigits? others).map (digit :: ·)
            else (hexDigits? (next :: others)).map (digit :: ·)

/-- The text after the prefix `0x`, which an underscore may follow. -/
def afterHexPrefix : List Nat → List Nat
  | 48 :: mark :: rest =>
      if mark = 120 ∨ mark = 88 then
        match rest with
        | 95 :: digits => digits
        | digits => digits
      else 48 :: mark :: rest
  | codes => codes

/-- The number of a text without sign and blanks. -/
def hexNatural? (codes : List Nat) : Option Nat :=
  (hexDigits? (afterHexPrefix codes)).map fun digits => Nat.ofDigits 16 digits.reverse

/-- `int(text, 16)`, with `none` for the `ValueError` -/
def parseHex? (codes : List Nat) : Option Int :=
  let ascii := codes.map asciiNumeral
  match (ascii.dropWhile isBlankCode).rdropWhile isBlankCode with
  | 43 :: digits => (hexNatural? digits).map Int.ofNat
  | 45 :: digits => (hexNatural? digits).map fun number : Nat => -(number : Int)
  | digits => (hexNatural? digits).map Int.ofNat

/-- A hexadecimal digit in lower case. -/
def hexCode (digit : Nat) : Nat :=
  if digit < 10 then 48 + digit else 87 + digit

section Reading

variable {digits : List Nat}

theorem hexDigit?_hexCode {digit : Nat} (hdigit : digit < 16) :
    hexDigit? (hexCode digit) = some digit := by
  have hall : ∀ digit < 16, hexDigit? (hexCode digit) = some digit := by decide
  exact hall digit hdigit

/-- What a hexadecimal digit is not. -/
theorem hexCode_ne {digit : Nat} (hdigit : digit < 16) :
    hexCode digit < 127 ∧ isBlankCode (hexCode digit) = false ∧ hexCode digit ≠ 95 ∧
      hexCode digit ≠ 120 ∧ hexCode digit ≠ 88 ∧ hexCode digit ≠ 43 ∧ hexCode digit ≠ 45 := by
  have hall : ∀ digit < 16, hexCode digit < 127 ∧ isBlankCode (hexCode digit) = false ∧
      hexCode digit ≠ 95 ∧ hexCode digit ≠ 120 ∧ hexCode digit ≠ 88 ∧ hexCode digit ≠ 43 ∧
      hexCode digit ≠ 45 := by decide
  exact hall digit hdigit

theorem hexDigits?_map_hexCode (hne : digits ≠ []) (hdigits : ∀ digit ∈ digits, digit < 16) :
    hexDigits? (digits.map hexCode) = some digits := by
  induction digits with
  | nil => exact absurd rfl hne
  | cons head tail ih =>
      have hhead := hexDigit?_hexCode (hdigits head List.mem_cons_self)
      cases tail with
      | nil => simp [hexDigits?, hhead]
      | cons next others =>
          have hrest := ih (by simp) fun digit hdigit => hdigits digit (by simp [hdigit])
          obtain ⟨_, _, hnext, _⟩ := hexCode_ne (hdigits next (by simp))
          rw [List.map_cons] at hrest
          rw [List.map_cons, List.map_cons, hexDigits?, hhead, Option.bind_some]
          simp only [if_neg hnext, hrest, Option.map_some]

theorem afterHexPrefix_map_hexCode (hdigits : ∀ digit ∈ digits, digit < 16) :
    afterHexPrefix (digits.map hexCode) = digits.map hexCode := by
  unfold afterHexPrefix
  split
  · rename_i mark rest heq
    cases digits with
    | nil => cases heq
    | cons first others =>
        cases others with
        | nil => simp at heq
        | cons second others =>
            rw [List.map_cons, List.map_cons, List.cons.injEq, List.cons.injEq] at heq
            obtain ⟨_, _, _, hlower, hupper, _⟩ := hexCode_ne (hdigits second (by simp))
            rw [heq.2.1] at hlower hupper
            rw [if_neg (by simp [hlower, hupper])]
            simp [heq.1, heq.2.1, heq.2.2]
  · rfl

/-- A number is read back from its hexadecimal digits. -/
theorem parseHex?_map_hexCode (hne : digits ≠ []) (hdigits : ∀ digit ∈ digits, digit < 16) :
    parseHex? (digits.map hexCode) = some (Int.ofNat (Nat.ofDigits 16 digits.reverse)) := by
  have hcodes : ∀ code ∈ digits.map hexCode, code < 127 ∧ isBlankCode code = false := by
    intro code hcode
    obtain ⟨digit, hdigit, rfl⟩ := List.mem_map.mp hcode
    have hother := hexCode_ne (hdigits digit hdigit)
    exact ⟨hother.1, hother.2.1⟩
  have hnatural : hexNatural? (digits.map hexCode) = some (Nat.ofDigits 16 digits.reverse) := by
    rw [hexNatural?, afterHexPrefix_map_hexCode hdigits, hexDigits?_map_hexCode hne hdigits]
    rfl
  rw [parseHex?, map_asciiNumeral fun code hcode => (hcodes code hcode).1]
  rw [trim_eq_self fun code hcode => (hcodes code hcode).2]
  cases digits with
  | nil => exact absurd rfl hne
  | cons head tail =>
      obtain ⟨_, _, _, _, _, hplus, hminus⟩ := hexCode_ne (hdigits head List.mem_cons_self)
      split
      · rename_i heq
        rw [List.map_cons, List.cons.injEq] at heq
        exact absurd heq.1 hplus
      · rename_i heq
        rw [List.map_cons, List.cons.injEq] at heq
        exact absurd heq.1 hminus
      · rw [hnatural]
        rfl

end Reading

end Text
