/-
Double-precision numbers as the exact rationals they stand for, with the infinities and NaN; both
zeros are one value.  Comparisons are exact, also against integers of any size, and NaN compares
with nothing.
-/
import Mathlib.Algebra.Order.Floor.Ring
import Mathlib.Data.Int.Log
import Mathlib.Data.Rat.Floor

inductive Binary64 where
  | nan
  | infinite (negative : Bool)
  | finite (value : ℚ)
  deriving DecidableEq

namespace Binary64

/-- `first <= second` -/
def le : Binary64 → Binary64 → Bool
  | nan, _ => false
  | _, nan => false
  | infinite true, _ => true
  | _, infinite false => true
  | finite first, finite second => first ≤ second
  | _, _ => false

/-- `first < second` -/
def lt (first second : Binary64) : Bool :=
  first != nan && second != nan && !second.le first

/-- `low <= value <= high` -/
def between (low high : ℚ) (value : Binary64) : Bool :=
  (finite low).le value && value.le (finite high)

/-- The integer nearest to a rational, and of two the even one. -/
def roundHalfEven (value : ℚ) : ℤ :=
  let below := ⌊value⌋
  let rest := value - below
  if rest < 1 / 2 then below
  else if 1 / 2 < rest then below + 1
  else if below % 2 = 0 then below
  else below + 1

/-- The exponent of the last bit that is kept of a positive number. -/
def lastBit (value : ℚ) : ℤ :=
  max (Int.log 2 value - 52) (-1074)

/-- The double nearest to a rational; beyond the largest ones it is an infinity. -/
def ofRat (value : ℚ) : Binary64 :=
  if value = 0 then finite 0
  else
    let exponent := lastBit |value|
    let magnitude := (roundHalfEven (|value| / 2 ^ exponent) : ℚ) * 2 ^ exponent
    if 2 ^ (1024 : ℤ) ≤ magnitude then infinite (value < 0)
    else finite (if value < 0 then -magnitude else magnitude)

/-- `float(value)` of an integer, with `none` for the `OverflowError` -/
def ofInt? (value : ℤ) : Option Binary64 :=
  match ofRat value with
  | infinite _ => none
  | number => some number

/-- Towards zero. -/
def truncate (value : ℚ) : ℤ :=
  if 0 ≤ value then ⌊value⌋ else ⌈value⌉

/-- `first + second` -/
def add : Binary64 → Binary64 → Binary64
  | finite first, finite second => ofRat (first + second)
  | nan, _ => nan
  | _, nan => nan
  | infinite first, infinite second => if first = second then infinite first else nan
  | infinite first, _ => infinite first
  | _, infinite second => infinite second

section Comparisons

variable {low high : ℚ} {value : Binary64}

/-- Only finite numbers lie between two others. -/
theorem between_eq_true_iff :
    between low high value = true ↔ ∃ number, value = finite number ∧ low ≤ number ∧ number ≤ high
    := by
  cases value with
  | nan => simp [between, le]
  | infinite negative => cases negative <;> simp [between, le]
  | finite number => simp [between, le]

theorem finite_lt_finite (first second : ℚ) :
    (finite first).lt (finite second) = decide (first < second) := by
  simp [lt, le, ← decide_not]

theorem lt_nan : lt value nan = false := by simp [lt]

theorem nan_lt : lt nan value = false := by simp [lt]

theorem le_nan : le value nan = false := by
  cases value with
  | nan => rfl
  | infinite negative => cases negative <;> rfl
  | finite number => rfl

theorem nan_le : le nan value = false := by
  cases value <;> rfl

end Comparisons

end Binary64
