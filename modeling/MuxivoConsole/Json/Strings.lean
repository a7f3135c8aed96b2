/-
Strings as Python's `json` writes them, in ASCII only, and as its strict scanner reads them: an
escaped pair of surrogates is one character, and a surrogate that is alone stays one.
-/
import MuxivoConsole.Json.Conversions

namespace Json

open Text

/-- A character of a string that stands for itself, or the UTF-16 unit of an escape `\u`. -/
inductive Piece where
  | plain (code : Nat)
  | unit (value : Nat)

/-- The character of an escape of one letter. -/
def escaped? (mark : Nat) : Option Nat :=
  if mark = 34 ∨ mark = 92 ∨ mark = 47 then some mark
  else if mark = 98 then some 8
  else if mark = 102 then some 12
  else if mark = 110 then some 10
  else if mark = 114 then some 13
  else if mark = 116 then some 9
  else none

/-- The unit of four hexadecimal digits. -/
def unit? (first second third fourth : Nat) : Option Nat := do
  let first ← hexDigit? first
  let second ← hexDigit? second
  let third ← hexDigit? third
  let fourth ← hexDigit? fourth
  return ((first * 16 + second) * 16 + third) * 16 + fourth

/-- The pieces up to the closing quote, and what follows it. -/
def scanPieces : Str → Option (List Piece × Str)
  | [] => none
  | code :: rest =>
      if code = 34 then some ([], rest)
      else if code = 92 then
        match rest with
        | [] => none
        | mark :: others =>
            if mark = 117 then
              match others with
              | first :: second :: third :: fourth :: after => do
                  let value ← unit? first second third fourth
                  let (pieces, remaining) ← scanPieces after
                  return (.unit value :: pieces, remaining)
              | _ => none
            else do
              let kept ← escaped? mark
              let (pieces, remaining) ← scanPieces others
              return (.plain kept :: pieces, remaining)
      else if code < 32 then none
      else do
        let (pieces, remaining) ← scanPieces rest
        return (.plain code :: pieces, remaining)

def isHighSurrogate (unit : Nat) : Bool :=
  0xd800 ≤ unit && unit ≤ 0xdbff

def isLowSurrogate (unit : Nat) : Bool :=
  0xdc00 ≤ unit && unit ≤ 0xdfff

/-- The character of a pair of surrogates. -/
def pairCode (high low : Nat) : Nat :=
  0x10000 + (high - 0xd800) * 0x400 + (low - 0xdc00)

/-- The characters of the pieces. -/
def joinPieces : List Piece → Str
  | [] => []
  | .plain code :: rest => code :: joinPieces rest
  | .unit high :: .unit low :: rest =>
      if isHighSurrogate high && isLowSurrogate low then pairCode high low :: joinPieces rest
      else high :: joinPieces (.unit low :: rest)
  | .unit value :: rest => value :: joinPieces rest

/-- `scanstring` after the opening quote -/
def scanString (codes : Str) : Attempt (Str × Str) :=
  orRaise .valueError ((scanPieces codes).map fun scanned => (joinPieces scanned.1, scanned.2))

/-- The escape of a unit. -/
def unitText (value : Nat) : Str :=
  92 :: 117 :: hexText 4 value

/-- The letter of the escape of a character. -/
def letter? (code : Nat) : Option Nat :=
  if code = 34 ∨ code = 92 then some code
  else if code = 8 then some 98
  else if code = 12 then some 102
  else if code = 10 then some 110
  else if code = 13 then some 114
  else if code = 9 then some 116
  else none

/-- A character as `json.dumps` writes it. -/
def escapeCode (code : Nat) : Str :=
  match letter? code with
  | some mark => [92, mark]
  | none =>
      if 32 ≤ code ∧ code ≤ 126 then [code]
      else if code < 0x10000 then unitText code
      else
        unitText (0xd800 + (code - 0x10000) / 0x400) ++
          unitText (0xdc00 + (code - 0x10000) % 0x400)

/-- `json.dumps` of a text -/
def encodeString (codes : Str) : Str :=
  34 :: codes.flatMap escapeCode ++ [34]

/-- A Unicode scalar value. -/
def IsScalar (code : Nat) : Prop :=
  code < 0xd800 ∨ 0xe000 ≤ code ∧ code < 0x110000

/-- The characters of a string are scalar values. -/
theorem isScalar_codesOf (text : String) : ∀ code ∈ codesOf text, IsScalar code := by
  intro code hcode
  obtain ⟨char, -, rfl⟩ := List.mem_map.mp hcode
  rcases char.valid with hlow | ⟨hhigh, hbound⟩
  · exact Or.inl hlow
  · exact Or.inr ⟨hhigh, hbound⟩

section RoundTrip

variable {code value : Nat} {codes rest : Str} {pieces : List Piece}

/-- The pieces that a character is written as. -/
def piecesOf (code : Nat) : List Piece :=
  if (letter? code).isSome ∨ 32 ≤ code ∧ code ≤ 126 then [.plain code]
  else if code < 0x10000 then [.unit code]
  else
    [.unit (0xd800 + (code - 0x10000) / 0x400), .unit (0xdc00 + (code - 0x10000) % 0x400)]

theorem escaped?_letter? {mark : Nat} (hletter : letter? code = some mark) :
    mark ≠ 117 ∧ escaped? mark = some code := by
  unfold letter? at hletter
  split_ifs at hletter with hsame hback hform hline hreturn htab
  · cases hletter
    rcases hsame with rfl | rfl <;> decide
  all_goals
    cases hletter
    subst code
    decide

theorem letter?_eq_none (hletter : letter? code = none) : code ≠ 34 ∧ code ≠ 92 := by
  unfold letter? at hletter
  split_ifs at hletter with hsame
  exact not_or.mp hsame

theorem unit?_hexText (hvalue : value < 0x10000) :
    unit? (hexCode (value / 16 ^ 3 % 16)) (hexCode (value / 16 ^ 2 % 16))
      (hexCode (value / 16 ^ 1 % 16)) (hexCode (value / 16 ^ 0 % 16)) = some value := by
  have hdigit : ∀ number : Nat, hexDigit? (hexCode (number % 16)) = some (number % 16) :=
    fun number => hexDigit?_hexCode (Nat.mod_lt number (by decide))
  rw [unit?, hdigit, hdigit, hdigit, hdigit]
  simp only [Option.pure_def, Option.bind_eq_bind, Option.bind_some, Option.some.injEq]
  omega

theorem scanPieces_unitText (hvalue : value < 0x10000) (hrest : scanPieces codes = some (pieces, rest)) :
    scanPieces (unitText value ++ codes) = some (.unit value :: pieces, rest) := by
  have htext : unitText value ++ codes = 92 :: 117 :: hexCode (value / 16 ^ 3 % 16) ::
      hexCode (value / 16 ^ 2 % 16) :: hexCode (value / 16 ^ 1 % 16) ::
      hexCode (value / 16 ^ 0 % 16) :: codes := rfl
  rw [htext, scanPieces, if_neg (by decide), if_pos rfl]
  simp only [if_true, unit?_hexText hvalue, hrest]
  rfl

theorem scanPieces_letter {mark : Nat} (hmark : mark ≠ 117) (hescaped : escaped? mark = some code)
    (hrest : scanPieces codes = some (pieces, rest)) :
    scanPieces (92 :: mark :: codes) = some (.plain code :: pieces, rest) := by
  rw [scanPieces.eq_def]
  simp only [if_neg (by decide : ¬ (92 = 34)), if_true, if_neg hmark, hescaped, hrest]
  rfl

theorem scanPieces_plain (hlow : 32 ≤ code) (hcode : code ≠ 34 ∧ code ≠ 92)
    (hrest : scanPieces codes = some (pieces, rest)) :
    scanPieces (code :: codes) = some (.plain code :: pieces, rest) := by
  rw [scanPieces.eq_def]
  simp only [if_neg hcode.1, if_neg hcode.2, if_neg (Nat.not_lt.mpr hlow), hrest]
  rfl

theorem scanPieces_escapeCode (hcode : code < 0x110000)
    (hrest : scanPieces codes = some (pieces, rest)) :
    scanPieces (escapeCode code ++ codes) = some (piecesOf code ++ pieces, rest) := by
  unfold escapeCode piecesOf
  cases hletter : letter? code with
  | some mark =>
      obtain ⟨hmark, hescaped⟩ := escaped?_letter? hletter
      simp only [Option.isSome_some, true_or, if_true]
      exact scanPieces_letter hmark hescaped hrest
  | none =>
      simp only [Option.isSome_none, Bool.false_eq_true, false_or]
      split_ifs with hplain hunit
      · exact scanPieces_plain hplain.1 (letter?_eq_none hletter) hrest
      · exact scanPieces_unitText hunit hrest
      · rw [List.append_assoc]
        exact scanPieces_unitText (by omega) (scanPieces_unitText (by omega) hrest)

theorem scanPieces_flatMap (hcodes : ∀ code ∈ codes, IsScalar code) :
    scanPieces (codes.flatMap escapeCode ++ 34 :: rest) = some (codes.flatMap piecesOf, rest) := by
  induction codes with
  | nil =>
      change scanPieces (34 :: rest) = some ([], rest)
      rw [scanPieces.eq_def]
      simp only [if_true]
  | cons head tail ih =>
      have hhead := hcodes head List.mem_cons_self
      rw [List.flatMap_cons, List.flatMap_cons, List.append_assoc]
      refine scanPieces_escapeCode ?_ (ih fun code hcode => hcodes code (List.mem_cons_of_mem _ hcode))
      unfold IsScalar at hhead
      omega

theorem joinPieces_unit (hvalue : isHighSurrogate value = false) :
    joinPieces (.unit value :: pieces) = value :: joinPieces pieces := by
  cases pieces with
  | nil => rfl
  | cons piece others =>
      cases piece with
      | plain code => rfl
      | unit low => rw [joinPieces, hvalue, Bool.false_and, if_neg Bool.false_ne_true]

theorem joinPieces_piecesOf (hcode : IsScalar code) :
    joinPieces (piecesOf code ++ pieces) = code :: joinPieces pieces := by
  unfold IsScalar at hcode
  unfold piecesOf
  split_ifs with hplain hunit
  · rfl
  · refine joinPieces_unit ?_
    simp only [isHighSurrogate, Bool.and_eq_false_iff, decide_eq_false_iff_not]
    omega
  · have hhigh : isHighSurrogate (0xd800 + (code - 0x10000) / 0x400) = true := by
      simp only [isHighSurrogate, Bool.and_eq_true, decide_eq_true_eq]
      omega
    have hlow : isLowSurrogate (0xdc00 + (code - 0x10000) % 0x400) = true := by
      simp only [isLowSurrogate, Bool.and_eq_true, decide_eq_true_eq]
      omega
    have hpair : pairCode (0xd800 + (code - 0x10000) / 0x400)
        (0xdc00 + (code - 0x10000) % 0x400) = code := by
      unfold pairCode
      omega
    change joinPieces (.unit _ :: .unit _ :: pieces) = _
    rw [joinPieces, hhigh, hlow, Bool.and_true, if_pos rfl, hpair]

theorem joinPieces_flatMap (hcodes : ∀ code ∈ codes, IsScalar code) :
    joinPieces (codes.flatMap piecesOf) = codes := by
  induction codes with
  | nil => rfl
  | cons head tail ih =>
      rw [List.flatMap_cons, joinPieces_piecesOf (hcodes head List.mem_cons_self),
        ih fun code hcode => hcodes code (List.mem_cons_of_mem _ hcode)]

/-- A text of scalar values is read back from what is written after the opening quote. -/
theorem scanString_flatMap (hcodes : ∀ code ∈ codes, IsScalar code) :
    scanString (codes.flatMap escapeCode ++ 34 :: rest) = .ok (codes, rest) := by
  rw [scanString, scanPieces_flatMap hcodes, Option.map_some]
  exact congrArg (fun text => Except.ok (text, rest)) (joinPieces_flatMap hcodes)

end RoundTrip

end Json
