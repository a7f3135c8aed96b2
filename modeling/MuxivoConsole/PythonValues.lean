/-
The part of Python's `str`, `uuid.UUID`, `StrEnum`, `frozenset` and frozen
dataclasses that the Console relies on.  A string is a sequence of code points; `strip`
removes the characters that `str.isspace` accepts, which is a larger set than
the ASCII blanks.
-/
import Mathlib.Data.List.Dedup
import Mathlib.Data.List.DropRight
import Mathlib.Data.Nat.Digits.Defs

namespace MuxivoConsole

/-- `str.isspace` of one code point. -/
def isSpace (character : Char) : Bool :=
  let code := character.toNat
  (0x09 ≤ code && code ≤ 0x0d) || (0x1c ≤ code && code ≤ 0x20) || code == 0x85 ||
    code == 0xa0 || code == 0x1680 || (0x2000 ≤ code && code ≤ 0x200a) ||
    code == 0x2028 || code == 0x2029 || code == 0x202f || code == 0x205f || code == 0x3000

/-- `str.strip` -/
def strip (text : String) : String :=
  String.ofList ((text.toList.dropWhile isSpace).rdropWhile isSpace)

/-- `not text.strip()` -/
def isBlank (text : String) : Bool :=
  text.toList.all isSpace

theorem isBlank_iff_strip_eq_empty (text : String) :
    isBlank text = true ↔ strip text = "" := by
  have hempty : strip text = "" ↔ (text.toList.dropWhile isSpace).rdropWhile isSpace = [] := by
    rw [strip, ← String.toList_inj, String.toList_ofList]
    rfl
  rw [hempty, isBlank, List.all_eq_true, List.rdropWhile_eq_nil_iff]
  constructor
  · intro hall character hmem
    exact hall character ((List.dropWhile_suffix isSpace).subset hmem)
  · intro hall
    have hnil : text.toList.dropWhile isSpace = [] := by
      by_contra hne
      have hhead := List.head_dropWhile_not isSpace hne
      rw [hall _ (List.head_mem hne)] at hhead
      exact Bool.noConfusion hhead
    exact List.dropWhile_eq_nil_iff.mp hnil

/-- Text without blanks is left alone by `strip`. -/
theorem strip_eq_self {text : String} (hsolid : ∀ character ∈ text.toList,
    isSpace character = false) : strip text = text := by
  have hleft : text.toList.dropWhile isSpace = text.toList := by
    cases hlist : text.toList with
    | nil => rfl
    | cons head tail =>
        have hhead : isSpace head = false := hsolid head (by simp [hlist])
        simp [hhead]
  have hright : text.toList.rdropWhile isSpace = text.toList := by
    rw [List.rdropWhile_eq_self_iff]
    intro hne
    simp [hsolid _ (List.getLast_mem hne)]
  rw [strip, hleft, hright, String.ofList_toList]

/-- A text is free of blanks if a run over its characters finds none. -/
theorem solid_of_all {text : String} (hall : (text.toList.all (!isSpace ·)) = true) :
    ∀ character ∈ text.toList, isSpace character = false := by
  intro character hmem
  simpa using List.all_eq_true.mp hall character hmem

/-- A 128-bit identifier. -/
structure UUID where
  int : BitVec 128
  deriving DecidableEq

namespace UUID

instance (value : Nat) : OfNat UUID value :=
  ⟨⟨BitVec.ofNat 128 value⟩⟩

/-- The 32 hexadecimal digits, most significant first. -/
def hexDigits (id : UUID) : List Char :=
  (List.range 32).map fun position => Nat.digitChar (id.int.toNat / 16 ^ (31 - position) % 16)

/-- `str(uuid)`: the digits in groups of 8, 4, 4, 4 and 12. -/
def str (id : UUID) : String :=
  let digits := id.hexDigits
  String.ofList (digits.take 8 ++ '-' :: (digits.drop 8).take 4 ++
    '-' :: (digits.drop 12).take 4 ++ '-' :: (digits.drop 16).take 4 ++
    '-' :: digits.drop 20)

@[simp] theorem length_hexDigits (id : UUID) : id.hexDigits.length = 32 := by
  simp [hexDigits]

@[simp] theorem length_str (id : UUID) : id.str.length = 36 := by
  have hdigits := id.length_hexDigits
  simp only [str, String.length_ofList, List.length_append, List.length_cons,
    List.length_take, List.length_drop, hdigits]
  decide

theorem isSpace_digitChar {digit : Nat} (hdigit : digit < 16) :
    isSpace (Nat.digitChar digit) = false := by
  have hall : ∀ digit < 16, isSpace (Nat.digitChar digit) = false := by decide
  exact hall digit hdigit

theorem hexDigits_solid (id : UUID) :
    ∀ character ∈ id.hexDigits, isSpace character = false := by
  intro character hmem
  simp only [hexDigits, List.mem_map] at hmem
  obtain ⟨position, _, rfl⟩ := hmem
  exact isSpace_digitChar (Nat.mod_lt _ (by decide))

/-- The text of an identifier has no blanks. -/
theorem str_solid (id : UUID) : ∀ character ∈ id.str.toList, isSpace character = false := by
  have hdigits := id.hexDigits_solid
  intro character hmem
  simp only [str, String.toList_ofList, List.mem_append, List.mem_cons] at hmem
  rcases hmem with ((((hmem | rfl | hmem) | rfl | hmem) | rfl | hmem) | rfl | hmem)
  · exact hdigits _ (List.mem_of_mem_take hmem)
  · decide
  · exact hdigits _ (List.mem_of_mem_drop (List.mem_of_mem_take hmem))
  · decide
  · exact hdigits _ (List.mem_of_mem_drop (List.mem_of_mem_take hmem))
  · decide
  · exact hdigits _ (List.mem_of_mem_drop (List.mem_of_mem_take hmem))
  · decide
  · exact hdigits _ (List.mem_of_mem_drop hmem)

example : UUID.str 0x0123456789abcdef0123456789abcdef =
    "01234567-89ab-cdef-0123-456789abcdef" := by
  decide

end UUID

/-- An enumeration whose members are their text. -/
class StrEnum (α : Type) where
  members : List α
  value : α → String
  complete : ∀ member, member ∈ members
  distinct : (members.map value).Nodup

namespace StrEnum

variable {α : Type} [StrEnum α]

/-- `Enum(text)`, with `none` for the `ValueError`. -/
def parse? (text : String) : Option α :=
  members.find? fun member => value member == text

theorem value_injective {first second : α} (hvalue : value first = value second) :
    first = second :=
  List.inj_on_of_nodup_map distinct (complete first) (complete second) hvalue

theorem parse?_eq_some {text : String} {member : α} :
    parse? text = some member ↔ value member = text := by
  constructor
  · intro hparse
    simpa using List.find?_some hparse
  · rintro rfl
    have hsome : (parse? (value member) : Option α).isSome := by
      rw [parse?, List.find?_isSome]
      exact ⟨member, complete member, by simp⟩
    obtain ⟨found, hfound⟩ := Option.isSome_iff_exists.mp hsome
    have hvalue : value found = value member := by simpa using List.find?_some hfound
    rw [hfound, value_injective hvalue]

@[simp] theorem parse?_value (member : α) : parse? (value member) = some member :=
  parse?_eq_some.mpr rfl

end StrEnum

/-- `frozenset`: the elements in some order, each once. -/
structure FrozenSet (α : Type) where
  elements : List α
  nodup : elements.Nodup
  deriving DecidableEq

namespace FrozenSet

variable {α : Type} [DecidableEq α]

def of (values : List α) : FrozenSet α :=
  ⟨values.dedup, List.nodup_dedup values⟩

def empty : FrozenSet α :=
  ⟨[], List.nodup_nil⟩

@[simp] theorem mem_of {values : List α} {value : α} :
    value ∈ (of values).elements ↔ value ∈ values :=
  List.mem_dedup

end FrozenSet

/-- An instance of a frozen dataclass: its fields, and the fact that
`__post_init__` (which names the `ValueError` it would raise) accepted them. -/
structure Validated {α : Type} (postInit : α → Option String) where
  fields : α
  accepted : postInit fields = none

namespace Validated

variable {α : Type} {postInit : α → Option String}

instance [DecidableEq α] : DecidableEq (Validated postInit) := fun first second =>
  decidable_of_iff (first.fields = second.fields) (by
    cases first
    cases second
    simp)

theorem fields_inj {first second : Validated postInit} :
    first.fields = second.fields ↔ first = second := by
  cases first
  cases second
  simp

/-- Call the constructor. -/
def make (postInit : α → Option String) (fields : α) : Except String (Validated postInit) :=
  if haccepted : postInit fields = none then .ok ⟨fields, haccepted⟩
  else .error ((postInit fields).getD "")

theorem make_eq_ok {fields : α} {value : Validated postInit} :
    make postInit fields = .ok value ↔ value.fields = fields := by
  unfold make
  constructor
  · intro hmake
    split at hmake
    · cases hmake
      rfl
    · cases hmake
  · rintro rfl
    rw [dif_pos value.accepted]

theorem make_toOption_eq_some {fields : α} {value : Validated postInit} :
    (make postInit fields).toOption = some value ↔ value.fields = fields := by
  rw [← make_eq_ok]
  cases make postInit fields with
  | error message => simp [Except.toOption]
  | ok made => simp [Except.toOption]

theorem make_of_accepted {fields : α} (haccepted : postInit fields = none) :
    make postInit fields = .ok ⟨fields, haccepted⟩ :=
  make_eq_ok.mpr rfl

end Validated

end MuxivoConsole
