/-
The text of doubles: what `float` reads, and the shortest text that `repr` writes.
-/
import MuxivoConsole.Floats.Binary64
import MuxivoConsole.Text.Unicode

namespace Binary64

open Text

def isDigitCode (code : Nat) : Bool :=
  48 ≤ code && code ≤ 57

/-- The number of some digits. -/
def ofDigitCodes (codes : List Nat) : Nat :=
  Nat.ofDigits 10 (codes.map (· - 48)).reverse

/-- A number from its integer digits, its fraction digits and its exponent. -/
def ofDecimal (negative : Bool) (whole fraction : List Nat) (exponent : ℤ) : Binary64 :=
  let magnitude : ℚ :=
    ofDigitCodes (whole ++ fraction) * (10 : ℚ) ^ (exponent - (fraction.length : ℤ))
  ofRat (if negative then -magnitude else magnitude)

/-- A sign in front of a text. -/
def signed : List Nat → Bool × List Nat
  | 45 :: rest => (true, rest)
  | 43 :: rest => (false, rest)
  | codes => (false, codes)

/-- The exponent that a text ends with: nothing, or `e` and an integer. -/
def exponent? : List Nat → Option ℤ
  | [] => some 0
  | mark :: rest =>
      if mark = 101 ∨ mark = 69 then
        let digits := (signed rest).2
        if digits ≠ [] ∧ digits.all isDigitCode then
          some (if (signed rest).1 then -(ofDigitCodes digits : ℤ) else ofDigitCodes digits)
        else none
      else none

/-- The decimal numbers without sign. -/
def decimal? (negative : Bool) (codes : List Nat) : Option Binary64 :=
  let whole := codes.takeWhile isDigitCode
  let afterWhole := codes.dropWhile isDigitCode
  let point := afterWhole.head? == some 46
  let fraction := if point then afterWhole.tail.takeWhile isDigitCode else []
  let rest := if point then afterWhole.tail.dropWhile isDigitCode else afterWhole
  if whole = [] ∧ fraction = [] then none
  else (exponent? rest).map (ofDecimal negative whole fraction)

def lowerAscii (code : Nat) : Nat :=
  if 65 ≤ code ∧ code ≤ 90 then code + 32 else code

/-- Underscores between digits are dropped; others are refused. -/
def withoutUnderscores : Nat → List Nat → Option (List Nat)
  | previous, [] => if previous = 95 then none else some []
  | previous, code :: rest =>
      if code = 95 then
        if isDigitCode previous then withoutUnderscores code rest else none
      else if previous = 95 ∧ ¬ isDigitCode code then none
      else (withoutUnderscores code rest).map (code :: ·)

/-- `float(text)`, with `none` for the `ValueError` -/
def parse? (codes : List Nat) : Option Binary64 := do
  let ascii := codes.map asciiNumeral
  let plain ← withoutUnderscores 0 ((ascii.dropWhile isBlankCode).rdropWhile isBlankCode)
  let unsigned := (signed plain).2
  let word := unsigned.map lowerAscii
  if word = codesOf "nan" then some nan
  else if word = codesOf "inf" ∨ word = codesOf "infinity" then some (infinite (signed plain).1)
  else decimal? (signed plain).1 unsigned

/-- The digits of a positive number with `count` places, if they determine the double. -/
def digitsWith? (value : ℚ) (point : ℤ) (count : Nat) : Option Nat :=
  let scale : ℚ := (10 : ℚ) ^ ((count : ℤ) - point)
  [roundHalfEven (value * scale), ⌊value * scale⌋, ⌈value * scale⌉].findSome? fun digits : ℤ =>
    if ofRat (digits / scale) = finite value then some digits.toNat else none

/-- The shortest digits of a positive double, and the place of its point. -/
def shortest (value : ℚ) : List Nat × ℤ :=
  let point := Int.log 10 value + 1
  match (List.range 17).findSome? fun extra =>
      (digitsWith? value point (extra + 1)).map fun digits => (extra + 1, digits) with
  | some (count, digits) =>
      let codes := showNat digits
      (codes.rdropWhile (· == 48), point + ((codes.length : ℤ) - (count : ℤ)))
  | none => ([48], 1)

/-- Digits with a point, or with an exponent where the point is far away. -/
def formatDigits (digits : List Nat) (point : ℤ) : List Nat :=
  if -4 < point ∧ point ≤ 16 then
    if point ≤ 0 then [48, 46] ++ List.replicate point.natAbs 48 ++ digits
    else if (digits.length : ℤ) ≤ point then
      digits ++ List.replicate (point.toNat - digits.length) 48 ++ [46, 48]
    else digits.take point.toNat ++ 46 :: digits.drop point.toNat
  else
    let exponent := point - 1
    let shown := showNat exponent.natAbs
    digits.take 1 ++ (if digits.length = 1 then [] else 46 :: digits.drop 1) ++
      [101, if exponent < 0 then 45 else 43] ++
        (if shown.length = 1 then 48 :: shown else shown)

/-- `repr(value)` -/
def repr : Binary64 → List Nat
  | nan => codesOf "nan"
  | infinite negative => codesOf (if negative then "-inf" else "inf")
  | finite value =>
      if value = 0 then codesOf "0.0"
      else
        let text := formatDigits (shortest |value|).1 (shortest |value|).2
        if value < 0 then 45 :: text else text

end Binary64
