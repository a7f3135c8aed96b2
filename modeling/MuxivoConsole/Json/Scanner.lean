/-
`json.loads` of a text: the C scanner of the standard library, which also takes `NaN` and the
infinities, keeps the last of several values of a key, refuses integers of too many digits, and
gives up with a `RecursionError` when arrays and objects are nested too deeply.
-/
import MuxivoConsole.Json.Strings
import MuxivoConsole.Mapping.Dict

namespace Json

open Text Mapping Binary64

/-- What is scanned of a text, and the text that follows it. -/
abbrev Scan (α : Type) := Str → Attempt (α × Str)

def isJsonBlank (code : Nat) : Bool :=
  code == 32 || code == 9 || code == 10 || code == 13

def skipBlanks (codes : Str) : Str :=
  codes.dropWhile isJsonBlank

section Numbers

/-- The digits before the point: a zero, or digits that start with another one. -/
def wholePart? : Str → Option (Str × Str)
  | [] => none
  | code :: rest =>
      if code = 48 then some ([48], rest)
      else if isDigitCode code then
        some (code :: rest.takeWhile isDigitCode, rest.dropWhile isDigitCode)
      else none

/-- A point and the digits after it, if there are any. -/
def fractionPart : Str → Str × Str
  | [] => ([], [])
  | code :: rest =>
      if code = 46 ∧ rest.takeWhile isDigitCode ≠ [] then
        (46 :: rest.takeWhile isDigitCode, rest.dropWhile isDigitCode)
      else ([], code :: rest)

/-- The sign of an exponent. -/
def exponentSign (codes : Str) : Str :=
  codes.take (if codes.head? = some 43 ∨ codes.head? = some 45 then 1 else 0)

/-- An exponent, if it has digits. -/
def exponentPart : Str → Str × Str
  | [] => ([], [])
  | mark :: rest =>
      let digits := rest.drop (exponentSign rest).length
      if (mark = 101 ∨ mark = 69) ∧ digits.takeWhile isDigitCode ≠ [] then
        (mark :: (exponentSign rest ++ digits.takeWhile isDigitCode),
          digits.dropWhile isDigitCode)
      else ([], mark :: rest)

/-- The sign of a number. -/
def minusPart : Str → Str × Str
  | 45 :: rest => ([45], rest)
  | codes => ([], codes)

/-- `_match_number` -/
def scanNumber : Scan Value := fun codes =>
  match wholePart? (minusPart codes).2 with
  | none => .error .valueError
  | some (whole, rest) =>
      let fraction := fractionPart rest
      let exponent := exponentPart fraction.2
      if fraction.1 = [] ∧ exponent.1 = [] then
        (orRaise .valueError (int? ((minusPart codes).1 ++ whole))).map fun number =>
          (.int number, exponent.2)
      else
        (orRaise .valueError
          (Binary64.parse? ((minusPart codes).1 ++ whole ++ fraction.1 ++ exponent.1))).map
            fun number => (.float number, exponent.2)

end Numbers

/-- The words that stand for values. -/
def constants : List (Str × Value) :=
  [(codesOf "null", .null), (codesOf "true", .bool true), (codesOf "false", .bool false),
    (codesOf "NaN", .float .nan), (codesOf "Infinity", .float (.infinite false)),
    (codesOf "-Infinity", .float (.infinite true))]

def scanConstant? (codes : Str) : Option (Value × Str) :=
  (constants.find? fun entry => entry.1.isPrefixOf codes).map fun entry =>
    (entry.2, codes.drop entry.1.length)

/-- The items of an array after its bracket; each of them takes a character of the fuel. -/
def scanItems (scan : Scan Value) : Nat → Scan (List Value)
  | 0, _ => .error .valueError
  | fuel + 1, codes => do
      let (value, rest) ← scan codes
      match skipBlanks rest with
      | 93 :: rest => return ([value], rest)
      | 44 :: rest =>
          let (values, rest) ← scanItems scan fuel (skipBlanks rest)
          return (value :: values, rest)
      | _ => .error .valueError

/-- A key, the colon, and the value. -/
def scanMember (scan : Scan Value) : Scan (Str × Value)
  | 34 :: codes => do
      let (key, rest) ← scanString codes
      match skipBlanks rest with
      | 58 :: rest =>
          let (value, rest) ← scan (skipBlanks rest)
          return ((key, value), rest)
      | _ => .error .valueError
  | _ => .error .valueError

/-- The members of an object after its brace; each of them takes a character of the fuel. -/
def scanMembers (scan : Scan Value) : Nat → Scan Members
  | 0, _ => .error .valueError
  | fuel + 1, codes => do
      let (member, rest) ← scanMember scan codes
      match skipBlanks rest with
      | 125 :: rest => return ([member], rest)
      | 44 :: rest =>
          let (members, rest) ← scanMembers scan fuel (skipBlanks rest)
          return (member :: members, rest)
      | _ => .error .valueError

/-- An array after its bracket. -/
def scanArray (scan : Scan Value) : Scan Value := fun codes =>
  match skipBlanks codes with
  | 93 :: rest => .ok (.array [], rest)
  | items => (scanItems scan (items.length + 1) items).map fun (values, rest) => (.array values, rest)

/-- An object after its brace. -/
def scanObject (scan : Scan Value) : Scan Value := fun codes =>
  match skipBlanks codes with
  | 125 :: rest => .ok (.object [], rest)
  | items =>
      (scanMembers scan (items.length + 1) items).map fun (members, rest) =>
        (.object (Dict.ofList members).items, rest)

/-- `scan_once`, with the scanner of the values one level deeper, if there may be any. -/
def scanOnce (inner : Option (Scan Value)) : Scan Value
  | [] => .error .valueError
  | code :: rest =>
      if code = 34 then (scanString rest).map fun (text, rest) => (.string text, rest)
      else if code = 123 then inner.elim (.error .recursionError) fun scan => scanObject scan rest
      else if code = 91 then inner.elim (.error .recursionError) fun scan => scanArray scan rest
      else
        match scanConstant? (code :: rest) with
        | some scanned => .ok scanned
        | none => scanNumber (code :: rest)

/-- The scanner of values whose arrays and objects are nested at most so deeply. -/
def scanValue : Nat → Scan Value
  | 0 => scanOnce none
  | depth + 1 => scanOnce (some (scanValue depth))

/-- `json.loads(text)`, where arrays and objects may be nested so deeply -/
def loads (depth : Nat) (codes : Str) : Attempt Value :=
  if codes.head? = some 0xfeff then .error .valueError
  else do
    let (value, rest) ← scanValue depth (skipBlanks codes)
    if skipBlanks rest = [] then .ok value else .error .valueError

section Failures

variable {α β : Type} {scan : Scan Value}

/-- The classes of what a scanner raises: the text is no JSON, or it is nested too deeply. -/
def IsScanError (error : PythonError) : Prop :=
  error = .valueError ∨ error = .recursionError

/-- An attempt that raises nothing else. -/
def ScanFails (attempt : Attempt α) : Prop :=
  ∀ error, attempt = .error error → IsScanError error

theorem scanFails_ok (value : α) : ScanFails (.ok value) := by
  rintro error ⟨⟩

theorem scanFails_valueError : ScanFails (.error .valueError : Attempt α) := by
  rintro error ⟨⟩
  exact Or.inl rfl

theorem scanFails_orRaise (value : Option α) : ScanFails (orRaise .valueError value) := by
  cases value with
  | none => exact scanFails_valueError
  | some value => exact scanFails_ok value

theorem scanFails_require (condition : Bool) : ScanFails (require condition) := by
  unfold require
  split_ifs
  · exact scanFails_ok ()
  · exact scanFails_valueError

theorem ScanFails.bind {attempt : Attempt α} {next : α → Attempt β} (hfirst : ScanFails attempt)
    (hnext : ∀ value, ScanFails (next value)) : ScanFails (attempt >>= next) := by
  cases attempt with
  | error error =>
      rintro other ⟨⟩
      exact hfirst error rfl
  | ok value => exact hnext value

theorem ScanFails.map {attempt : Attempt α} {f : α → β} (hfirst : ScanFails attempt) :
    ScanFails (attempt.map f) := by
  cases attempt with
  | error error =>
      rintro other ⟨⟩
      exact hfirst error rfl
  | ok value => exact scanFails_ok _

theorem scanFails_scanString (codes : Str) : ScanFails (scanString codes) :=
  scanFails_orRaise _

theorem scanFails_scanNumber (codes : Str) : ScanFails (scanNumber codes) := by
  unfold scanNumber
  split
  · exact scanFails_valueError
  · dsimp only
    split_ifs
    · exact (scanFails_orRaise _).map
    · exact (scanFails_orRaise _).map

theorem scanFails_scanItems (hscan : ∀ codes, ScanFails (scan codes)) (fuel : Nat) (codes : Str) :
    ScanFails (scanItems scan fuel codes) := by
  induction fuel generalizing codes with
  | zero => exact scanFails_valueError
  | succ fuel ih =>
      refine (hscan codes).bind fun (value, rest) => ?_
      dsimp only
      split
      · exact scanFails_ok _
      · exact (ih _).bind fun _ => scanFails_ok _
      · exact scanFails_valueError

theorem scanFails_scanMember (hscan : ∀ codes, ScanFails (scan codes)) (codes : Str) :
    ScanFails (scanMember scan codes) := by
  unfold scanMember
  split
  · refine (scanFails_scanString _).bind fun (key, rest) => ?_
    dsimp only
    split
    · exact (hscan _).bind fun _ => scanFails_ok _
    · exact scanFails_valueError
  · exact scanFails_valueError

theorem scanFails_scanMembers (hscan : ∀ codes, ScanFails (scan codes)) (fuel : Nat)
    (codes : Str) : ScanFails (scanMembers scan fuel codes) := by
  induction fuel generalizing codes with
  | zero => exact scanFails_valueError
  | succ fuel ih =>
      refine (scanFails_scanMember hscan codes).bind fun (member, rest) => ?_
      dsimp only
      split
      · exact scanFails_ok _
      · exact (ih _).bind fun _ => scanFails_ok _
      · exact scanFails_valueError

theorem scanFails_scanArray (hscan : ∀ codes, ScanFails (scan codes)) (codes : Str) :
    ScanFails (scanArray scan codes) := by
  unfold scanArray
  split
  · exact scanFails_ok _
  · exact (scanFails_scanItems hscan _ _).map

theorem scanFails_scanObject (hscan : ∀ codes, ScanFails (scan codes)) (codes : Str) :
    ScanFails (scanObject scan codes) := by
  unfold scanObject
  split
  · exact scanFails_ok _
  · exact (scanFails_scanMembers hscan _ _).map

theorem scanFails_scanOnce {inner : Option (Scan Value)}
    (hinner : ∀ scan ∈ inner, ∀ codes, ScanFails (scan codes)) (codes : Str) :
    ScanFails (scanOnce inner codes) := by
  have hdeep : ScanFails (.error .recursionError : Attempt (Value × Str)) := by
    rintro error ⟨⟩
    exact Or.inr rfl
  cases codes with
  | nil => exact scanFails_valueError
  | cons code rest =>
      rw [scanOnce]
      split_ifs
      · exact (scanFails_scanString rest).map
      · cases inner with
        | none => exact hdeep
        | some scan => exact scanFails_scanObject (hinner scan rfl) rest
      · cases inner with
        | none => exact hdeep
        | some scan => exact scanFails_scanArray (hinner scan rfl) rest
      · split
        · exact scanFails_ok _
        · exact scanFails_scanNumber _

theorem scanFails_scanValue (depth : Nat) (codes : Str) : ScanFails (scanValue depth codes) := by
  induction depth generalizing codes with
  | zero => exact scanFails_scanOnce (by simp) codes
  | succ depth ih =>
      refine scanFails_scanOnce ?_ codes
      rintro scan ⟨⟩
      exact ih

/-- `json.loads` raises a `ValueError` or a `RecursionError`. -/
theorem scanFails_loads (depth : Nat) (codes : Str) : ScanFails (loads depth codes) := by
  unfold loads
  split_ifs
  · exact scanFails_valueError
  · refine (scanFails_scanValue depth _).bind fun (value, rest) => ?_
    dsimp only
    split_ifs
    · exact scanFails_ok _
    · exact scanFails_valueError

end Failures

end Json
