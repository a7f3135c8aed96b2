/-
`uuid.UUID` of a text, which accepts more than the form that `str` writes, and reads that form
back.
-/
import MuxivoConsole.PythonValues
import MuxivoConsole.Text.Hexadecimal

namespace MuxivoConsole

open Text

/-- `text.replace(word, "")` from the position after `skip` more characters. -/
def removeFrom (word : List Nat) : Nat → List Nat → List Nat
  | _, [] => []
  | skip + 1, _ :: rest => removeFrom word skip rest
  | 0, code :: rest =>
      if word.isPrefixOf (code :: rest) then removeFrom word (word.length - 1) rest
      else code :: removeFrom word 0 rest

/-- `text.replace(word, "")` -/
def remove (word codes : List Nat) : List Nat :=
  removeFrom word 0 codes

namespace UUID

def isBrace (code : Nat) : Bool :=
  code == 123 || code == 125

/-- `"urn:"` -/
def urnMark : List Nat := [117, 114, 110, 58]

/-- `"uuid:"` -/
def uuidMark : List Nat := [117, 117, 105, 100, 58]

/-- The hexadecimal digits that `UUID` is left with. -/
def hexOf (codes : List Nat) : List Nat :=
  (((remove uuidMark (remove urnMark codes)).dropWhile isBrace).rdropWhile isBrace).filter (· ≠ 45)

/-- `UUID(text)`, with `none` for the `ValueError` -/
def parse? (codes : List Nat) : Option UUID :=
  let hex := hexOf codes
  if hex.length = 32 then
    (parseHex? hex).bind fun value =>
      if 0 ≤ value ∧ value < 2 ^ 128 then some ⟨BitVec.ofNat 128 value.toNat⟩ else none
  else none

section RoundTrip

variable {codes : List Nat} {id : UUID}

theorem removeFrom_eq_self {mark : Nat} {word : List Nat} (hmark : mark ∉ codes) :
    removeFrom (mark :: word) 0 codes = codes := by
  induction codes with
  | nil => rfl
  | cons head tail ih =>
      have hhead : mark ≠ head := by
        rintro rfl
        exact hmark List.mem_cons_self
      have hmismatch : (mark :: word).isPrefixOf (head :: tail) = false := by
        simp [List.isPrefixOf, hhead]
      rw [removeFrom, hmismatch, if_neg (by decide),
        ih fun hmem => hmark (List.mem_cons_of_mem _ hmem)]

/-- The values of the 32 digits, most significant first. -/
def digitValues (id : UUID) : List Nat :=
  (List.range 32).map fun position => id.int.toNat / 16 ^ (31 - position) % 16

theorem digitValues_lt : ∀ digit ∈ id.digitValues, digit < 16 := by
  intro digit hdigit
  obtain ⟨position, _, rfl⟩ := List.mem_map.mp hdigit
  exact Nat.mod_lt _ (by decide)

theorem map_toNat_hexDigits : id.hexDigits.map Char.toNat = id.digitValues.map hexCode := by
  have hall : ∀ digit < 16, (Nat.digitChar digit).toNat = hexCode digit := by decide
  rw [hexDigits, digitValues, List.map_map, List.map_map]
  exact List.map_congr_left fun position _ => hall _ (Nat.mod_lt _ (by decide))

/-- The digits of a number below a power of the base. -/
theorem ofDigits_range (number count : Nat) :
    Nat.ofDigits 16 ((List.range count).map fun position => number / 16 ^ position % 16) =
      number % 16 ^ count := by
  induction count with
  | zero => simp [Nat.mod_one]
  | succ count ih =>
      rw [List.range_succ, List.map_append, Nat.ofDigits_append, ih, List.length_map,
        List.length_range, List.map_singleton, Nat.ofDigits_singleton, Nat.mod_pow_succ]

theorem ofDigits_digitValues : Nat.ofDigits 16 id.digitValues.reverse = id.int.toNat := by
  have hreverse : id.digitValues.reverse =
      (List.range 32).map fun position => id.int.toNat / 16 ^ position % 16 := by
    apply List.ext_getElem
    · simp [digitValues]
    · intro position hposition hrange
      simp only [List.length_map, List.length_range] at hrange
      have hback : 31 - (32 - 1 - position) = position := by omega
      simp [digitValues, List.getElem_reverse, hback]
  rw [hreverse, ofDigits_range, Nat.mod_eq_of_lt]
  have hbound := id.int.isLt
  have hpower : (16 : Nat) ^ 32 = 2 ^ 128 := by norm_num
  omega

/-- Digits in five groups, without what separates them. -/
theorem groups_eq (digits : List Nat) :
    digits.take 8 ++ ((digits.drop 8).take 4 ++ ((digits.drop 12).take 4 ++
      ((digits.drop 16).take 4 ++ digits.drop 20))) = digits := by
  have hfourth : (digits.drop 16).take 4 ++ digits.drop 20 = digits.drop 16 := by
    have hjoin := List.take_append_drop 4 (digits.drop 16)
    rwa [List.drop_drop] at hjoin
  have hthird : (digits.drop 12).take 4 ++ digits.drop 16 = digits.drop 12 := by
    have hjoin := List.take_append_drop 4 (digits.drop 12)
    rwa [List.drop_drop] at hjoin
  have hsecond : (digits.drop 8).take 4 ++ digits.drop 12 = digits.drop 8 := by
    have hjoin := List.take_append_drop 4 (digits.drop 8)
    rwa [List.drop_drop] at hjoin
  rw [hfourth, hthird, hsecond, List.take_append_drop]

/-- The code points of the text of an identifier: its digits and hyphens. -/
theorem codesOf_str : codesOf id.str =
    (id.digitValues.map hexCode).take 8 ++ 45 :: (((id.digitValues.map hexCode).drop 8).take 4 ++
      45 :: (((id.digitValues.map hexCode).drop 12).take 4 ++
        45 :: (((id.digitValues.map hexCode).drop 16).take 4 ++
          45 :: (id.digitValues.map hexCode).drop 20))) := by
  have hhyphen : Char.toNat '-' = 45 := rfl
  simp only [codesOf, str, String.toList_ofList, List.map_append, List.map_cons, List.map_take,
    List.map_drop, map_toNat_hexDigits, hhyphen, List.append_assoc, List.cons_append]

theorem filter_codesOf_str :
    (codesOf id.str).filter (· ≠ 45) = id.digitValues.map hexCode := by
  have hdigits : ∀ code ∈ id.digitValues.map hexCode, code ≠ 45 := by
    intro code hcode
    obtain ⟨digit, hdigit, rfl⟩ := List.mem_map.mp hcode
    obtain ⟨_, _, _, _, _, _, hhyphen⟩ := hexCode_ne (digitValues_lt digit hdigit)
    exact hhyphen
  have hkeep : ∀ part : List Nat, part ⊆ id.digitValues.map hexCode →
      part.filter (· ≠ 45) = part := by
    intro part hpart
    rw [List.filter_eq_self]
    intro code hcode
    simpa using hdigits code (hpart hcode)
  have hhyphen : decide ((45 : Nat) ≠ 45) = false := by decide
  rw [codesOf_str]
  simp only [List.filter_append, List.filter_cons, hhyphen, Bool.false_eq_true, if_false]
  rw [hkeep _ (List.take_subset _ _), hkeep _ fun _ hmem => List.mem_of_mem_drop
      (List.mem_of_mem_take hmem), hkeep _ fun _ hmem => List.mem_of_mem_drop
      (List.mem_of_mem_take hmem), hkeep _ fun _ hmem => List.mem_of_mem_drop
      (List.mem_of_mem_take hmem), hkeep _ (List.drop_subset _ _)]
  exact groups_eq _

/-- The text of an identifier has digits and hyphens only. -/
theorem mem_codesOf_str {code : Nat} (hcode : code ∈ codesOf id.str) :
    code = 45 ∨ ∃ digit < 16, code = hexCode digit := by
  by_cases hhyphen : code = 45
  · exact Or.inl hhyphen
  · have hmem : code ∈ (codesOf id.str).filter (· ≠ 45) := by simp [hcode, hhyphen]
    rw [filter_codesOf_str, List.mem_map] at hmem
    obtain ⟨digit, hdigit, rfl⟩ := hmem
    exact Or.inr ⟨digit, digitValues_lt digit hdigit, rfl⟩

theorem hexOf_codesOf_str : hexOf (codesOf id.str) = id.digitValues.map hexCode := by
  have hother : ∀ digit < 16, hexCode digit ≠ 117 ∧ isBrace (hexCode digit) = false := by decide
  have hmark : 117 ∉ codesOf id.str := by
    intro hmem
    rcases mem_codesOf_str hmem with hcode | ⟨digit, hdigit, hcode⟩
    · exact absurd hcode (by decide)
    · exact (hother digit hdigit).1 hcode.symm
  have hbrace : ∀ code ∈ codesOf id.str, isBrace code = false := by
    intro code hmem
    rcases mem_codesOf_str hmem with rfl | ⟨digit, hdigit, rfl⟩
    · rfl
    · exact (hother digit hdigit).2
  have hleft : (codesOf id.str).dropWhile isBrace = codesOf id.str := by
    rw [List.dropWhile_eq_self_iff]
    intro hpositive
    simp [hbrace _ (List.getElem_mem hpositive)]
  have hright : (codesOf id.str).rdropWhile isBrace = codesOf id.str := by
    rw [List.rdropWhile_eq_self_iff]
    intro hne
    simp [hbrace _ (List.getLast_mem hne)]
  rw [hexOf, remove, remove, urnMark, uuidMark, removeFrom_eq_self hmark, removeFrom_eq_self hmark,
    hleft, hright, filter_codesOf_str]

/-- An identifier is read back from its text. -/
theorem parse?_codesOf_str (id : UUID) : parse? (codesOf id.str) = some id := by
  have hne : id.digitValues ≠ [] := by simp [digitValues]
  have hlength : (id.digitValues.map hexCode).length = 32 := by simp [digitValues]
  have hbound : (Int.ofNat id.int.toNat) < 2 ^ 128 := by
    rw [Int.ofNat_eq_natCast]
    exact_mod_cast id.int.isLt
  rw [parse?]
  simp only [hexOf_codesOf_str]
  rw [if_pos hlength, parseHex?_map_hexCode hne digitValues_lt, ofDigits_digitValues,
    Option.bind_some, if_pos ⟨Int.natCast_nonneg _, hbound⟩]
  simp

theorem str_injective {first second : UUID} (hstr : first.str = second.str) : first = second := by
  have hfirst := parse?_codesOf_str first
  rw [hstr, parse?_codesOf_str, Option.some.injEq] at hfirst
  exact hfirst.symm

end RoundTrip

end UUID

end MuxivoConsole
