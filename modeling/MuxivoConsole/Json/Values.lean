/-
The values that Python's `json` decoder produces.  A string is a list of code points, lone
surrogates included; a number is an integer of any size or a double, NaN and the infinities
included; an object lists its members in the order of their keys' first occurrences.
-/
import MuxivoConsole.Floats.Binary64
import MuxivoConsole.Text.Unicode

namespace Json

inductive Value where
  | null
  | bool (value : Bool)
  | int (value : ℤ)
  | float (value : Binary64)
  | string (codes : List Nat)
  | array (items : List Value)
  | object (members : List (List Nat × Value))

/-- The members of an object. -/
abbrev Members := List (List Nat × Value)

/-- `members.get(key)` -/
def member? (members : Members) (key : String) : Option Value :=
  (members.find? (·.1 == Text.codesOf key)).map (·.2)

namespace Value

/-- `bool(value)` -/
def truthy : Value → Bool
  | null => false
  | bool value => value
  | int value => value ≠ 0
  | float value => value ≠ .finite 0
  | string codes => codes ≠ []
  | array items => !items.isEmpty
  | object members => !members.isEmpty

/-- `isinstance(value, dict)` -/
def object? : Value → Option Members
  | object members => some members
  | _ => none

/-- `isinstance(value, list)` -/
def array? : Value → Option (List Value)
  | array items => some items
  | _ => none

/-- `isinstance(value, str)` -/
def string? : Value → Option (List Nat)
  | string codes => some codes
  | _ => none

/-- `isinstance(value, bool)` -/
def bool? : Value → Option Bool
  | bool value => some value
  | _ => none

/-- `isinstance(value, int) and not isinstance(value, bool)` -/
def int? : Value → Option ℤ
  | int value => some value
  | _ => none

section Kinds

variable {value : Value}

theorem string?_eq_some {codes : List Nat} : value.string? = some codes ↔ value = string codes := by
  cases value <;> simp [string?]

theorem bool?_eq_some {flag : Bool} : value.bool? = some flag ↔ value = bool flag := by
  cases value <;> simp [bool?]

theorem int?_eq_some {number : ℤ} : value.int? = some number ↔ value = int number := by
  cases value <;> simp [int?]

theorem array?_eq_some {items : List Value} : value.array? = some items ↔ value = array items := by
  cases value <;> simp [array?]

theorem object?_eq_some {members : Members} :
    value.object? = some members ↔ value = object members := by
  cases value <;> simp [object?]

end Kinds

end Value

end Json
