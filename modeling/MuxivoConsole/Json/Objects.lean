/-
Objects of texts and integers as `json.dumps` writes them without blanks, and that the scanner reads
them back.
-/
import MuxivoConsole.Json.Scanner

namespace Json

open Text Mapping Binary64

/-- A text or an integer. -/
inductive Atom where
  | text (codes : Str)
  | number (value : ℤ)
  deriving DecidableEq

namespace Atom

def value : Atom → Value
  | text codes => .string codes
  | number value => .int value

def encode : Atom → Str
  | text codes => encodeString codes
  | number value => showInt value

/-- Texts of scalar values and integers of few enough digits are read back. -/
def Readable : Atom → Prop
  | text codes => ∀ code ∈ codes, IsScalar code
  | number value => (showNat value.natAbs).length ≤ maxDigits

end Atom

/-- A key, a colon and a value. -/
def encodeMember (member : Str × Atom) : Str :=
  encodeString member.1 ++ 58 :: member.2.encode

/-- The members with commas between them. -/
def encodeMembers : List (Str × Atom) → Str
  | [] => []
  | [member] => encodeMember member
  | member :: rest => encodeMember member ++ 44 :: encodeMembers rest

/-- `json.dumps(members, separators=(",", ":"))` -/
def encodeObject (members : List (Str × Atom)) : Str :=
  123 :: (encodeMembers members ++ [125])

/-- The members in the order of their keys. -/
def sortMembers (members : List (Str × Atom)) : List (Str × Atom) :=
  members.insertionSort fun first second => first.1 ≤ second.1

section Numbers

variable {number : Nat} {value : ℤ} {rest : Str} {mark : Nat}

/-- What may follow a value: no part of a number. -/
def EndsNumber (rest : Str) : Prop :=
  ∀ code ∈ rest.head?, isDigitCode code = false ∧ code ≠ 46 ∧ code ≠ 101 ∧ code ≠ 69

theorem isDigitCode_of_mem_showNat {code : Nat} (hcode : code ∈ showNat number) :
    isDigitCode code = true := by
  have hdigit := digit_of_mem_showNat hcode
  simp [isDigitCode, hdigit]

/-- A number with more than one digit starts with another digit than zero. -/
theorem showNat_cases (number : Nat) :
    showNat number = [48] ∨ ∃ code digits, showNat number = code :: digits ∧ code ≠ 48 := by
  by_cases hzero : number = 0
  · exact Or.inl (by rw [showNat, if_pos hzero])
  · have hne : Nat.digits 10 number ≠ [] := Nat.digits_ne_nil_iff_ne_zero.mpr hzero
    have hlast := Nat.getLast_digit_ne_zero 10 hzero
    obtain ⟨init, last, hdigits⟩ := (List.eq_nil_or_concat (Nat.digits 10 number)).resolve_left hne
    refine Or.inr ⟨48 + last, init.reverse.map (48 + ·), ?_, ?_⟩
    · rw [showNat_eq_digits hzero, hdigits]
      simp
    · simp only [hdigits, List.concat_eq_append, List.getLast_append_singleton] at hlast
      omega

theorem wholePart?_showNat (hrest : EndsNumber rest) :
    wholePart? (showNat number ++ rest) = some (showNat number, rest) := by
  have hstop : rest.takeWhile isDigitCode = [] ∧ rest.dropWhile isDigitCode = rest := by
    cases rest with
    | nil => exact ⟨rfl, rfl⟩
    | cons code rest =>
        have hdigit := (hrest code rfl).1
        rw [List.takeWhile_cons_of_neg (by simp [hdigit]),
          List.dropWhile_cons_of_neg (by simp [hdigit])]
        exact ⟨rfl, rfl⟩
  rcases showNat_cases number with hzero | ⟨code, digits, hcons, hcode⟩
  · rw [hzero]
    rfl
  · have hdigits : ∀ digit ∈ digits, isDigitCode digit = true := fun digit hdigit =>
      @isDigitCode_of_mem_showNat number digit (by rw [hcons]; exact List.mem_cons_of_mem _ hdigit)
    have hhead : isDigitCode code = true :=
      @isDigitCode_of_mem_showNat number code (by rw [hcons]; exact List.mem_cons_self)
    rw [hcons, List.cons_append, wholePart?, if_neg hcode, if_pos hhead,
      List.takeWhile_append_of_pos hdigits, List.dropWhile_append_of_pos hdigits, hstop.1, hstop.2,
      List.append_nil]

theorem minusPart_showInt : minusPart (showInt value ++ rest) =
    (if value < 0 then [45] else [], showNat value.natAbs ++ rest) := by
  unfold showInt
  split_ifs
  · rfl
  · cases hcodes : showNat value.natAbs with
    | nil => exact absurd hcodes showNat_ne_nil
    | cons code digits =>
        have hdigit := @digit_of_mem_showNat value.natAbs code (by simp [hcodes])
        rw [List.cons_append, minusPart.eq_def]
        split
        · rename_i heq
          simp only [List.cons.injEq] at heq
          omega
        · rfl

/-- No fraction and no exponent follow. -/
theorem parts_of_endsNumber (hrest : EndsNumber rest) :
    fractionPart rest = ([], rest) ∧ exponentPart rest = ([], rest) := by
  cases rest with
  | nil => exact ⟨rfl, rfl⟩
  | cons code rest =>
      obtain ⟨-, hpoint, hlower, hupper⟩ := hrest code rfl
      rw [fractionPart, exponentPart, if_neg fun hboth => hpoint hboth.1, if_neg]
      · exact ⟨rfl, rfl⟩
      · rintro ⟨hexponent | hexponent, -⟩
        · exact hlower hexponent
        · exact hupper hexponent

theorem scanNumber_showInt (hlength : (showNat value.natAbs).length ≤ maxDigits)
    (hrest : EndsNumber rest) :
    scanNumber (showInt value ++ rest) = .ok (.int value, rest) := by
  obtain ⟨hfraction, hexponent⟩ := parts_of_endsNumber hrest
  have htext : (if value < 0 then [45] else []) ++ showNat value.natAbs = showInt value := by
    unfold showInt
    split_ifs <;> rfl
  simp only [scanNumber, minusPart_showInt, wholePart?_showNat hrest, hfraction, hexponent,
    and_self, if_true, htext, int?_showInt hlength]
  rfl

/-- A number starts with a digit, or with a minus and a digit. -/
theorem showInt_cons (value : ℤ) : ∃ code digits, showInt value = code :: digits ∧
    (48 ≤ code ∧ code ≤ 57 ∨
      code = 45 ∧ ∃ digit others, digits = digit :: others ∧ 48 ≤ digit ∧ digit ≤ 57) := by
  cases hcodes : showNat value.natAbs with
  | nil => exact absurd hcodes showNat_ne_nil
  | cons digit others =>
      have hdigit := @digit_of_mem_showNat value.natAbs digit (by simp [hcodes])
      unfold showInt
      split_ifs
      · exact ⟨45, _, rfl, Or.inr ⟨rfl, digit, others, hcodes, hdigit⟩⟩
      · exact ⟨digit, others, hcodes, Or.inl hdigit⟩

/-- A number starts like none of the words. -/
theorem scanConstant?_showInt : scanConstant? (showInt value ++ rest) = none := by
  obtain ⟨code, digits, hcons, hcode⟩ := showInt_cons value
  have hnone : ∀ entry ∈ constants, ¬ entry.1 <+: showInt value ++ rest := by
    rw [hcons]
    intro entry hentry hbegins
    have hstarts : ∀ entry ∈ constants, ∃ first second others, entry.1 = first :: second :: others ∧
        ¬ (48 ≤ first ∧ first ≤ 57) ∧ (first = 45 → ¬ (48 ≤ second ∧ second ≤ 57)) := by
      intro entry hentry
      simp only [constants, List.mem_cons, List.not_mem_nil, or_false] at hentry
      rcases hentry with rfl | rfl | rfl | rfl | rfl | rfl <;>
        exact ⟨_, _, _, rfl, by decide, by decide⟩
    obtain ⟨first, second, others, hentry', hdigit, hminus⟩ := hstarts entry hentry
    rw [hentry', List.cons_append, List.cons_prefix_cons] at hbegins
    obtain ⟨rfl, hbegins⟩ := hbegins
    rcases hcode with hcode | ⟨rfl, digit, digits', rfl, hdigit'⟩
    · exact hdigit hcode
    · rw [List.cons_append, List.cons_prefix_cons] at hbegins
      exact hminus rfl (hbegins.1 ▸ hdigit')
  rw [scanConstant?, List.find?_eq_none.mpr, Option.map_none]
  intro entry hentry
  rw [List.isPrefixOf_iff_prefix]
  exact hnone entry hentry

end Numbers

section Objects

variable {atom : Atom} {member : Str × Atom} {members : List (Str × Atom)} {depth : Nat}
  {rest : Str}

theorem scanValue_eq (depth : Nat) : ∃ inner, scanValue depth = scanOnce inner := by
  cases depth with
  | zero => exact ⟨none, rfl⟩
  | succ depth => exact ⟨some (scanValue depth), rfl⟩

/-- A text or a number is read back wherever no number goes on. -/
theorem scanValue_encode (hatom : atom.Readable) (hrest : EndsNumber rest) :
    scanValue depth (atom.encode ++ rest) = .ok (atom.value, rest) := by
  obtain ⟨inner, hinner⟩ := scanValue_eq depth
  rw [hinner]
  cases atom with
  | text codes =>
      rw [Atom.encode, encodeString, List.append_assoc, List.cons_append, scanOnce, if_pos rfl,
        List.singleton_append, scanString_flatMap hatom]
      rfl
  | number value =>
      obtain ⟨code, digits, hcons, hcode⟩ := showInt_cons value
      have hnumber := @scanNumber_showInt value rest hatom hrest
      have hconstant := @scanConstant?_showInt value rest
      rw [Atom.encode, Atom.value]
      rw [hcons, List.cons_append] at hnumber hconstant ⊢
      rw [scanOnce, if_neg (by omega), if_neg (by omega), if_neg (by omega), hconstant]
      exact hnumber

/-- No value starts with a blank or a closing brace. -/
theorem skipBlanks_encode (atom : Atom) (rest : Str) :
    skipBlanks (atom.encode ++ rest) = atom.encode ++ rest := by
  cases atom with
  | text codes => rfl
  | number value =>
      obtain ⟨code, digits, hcons, hcode⟩ := showInt_cons value
      rw [Atom.encode, hcons, List.cons_append, skipBlanks, List.dropWhile_cons_of_neg]
      simp only [isJsonBlank, Bool.or_eq_true, beq_iff_eq]
      omega

/-- A member whose key and value are read back. -/
structure ReadableMember (member : Str × Atom) : Prop where
  key : ∀ code ∈ member.1, IsScalar code
  value : member.2.Readable

theorem scanMember_encode (hmember : ReadableMember member) (hrest : EndsNumber rest) :
    scanMember (scanValue depth) (encodeMember member ++ rest) =
      .ok ((member.1, member.2.value), rest) := by
  have htext : encodeMember member ++ rest =
      34 :: (member.1.flatMap escapeCode ++ 34 :: (58 :: (member.2.encode ++ rest))) := by
    simp [encodeMember, encodeString]
  have hcolon : skipBlanks (58 :: (member.2.encode ++ rest)) =
      58 :: (member.2.encode ++ rest) := rfl
  rw [htext, scanMember, scanString_flatMap hmember.key, ok_bind]
  simp only [hcolon, skipBlanks_encode, scanValue_encode hmember.value hrest, ok_bind]
  rfl

/-- Members with commas between them are read up to the closing brace. -/
theorem scanMembers_encode (hne : members ≠ [])
    (hmembers : ∀ member ∈ members, ReadableMember member) {fuel : Nat}
    (hfuel : members.length ≤ fuel) :
    scanMembers (scanValue depth) fuel (encodeMembers members ++ 125 :: rest) =
      .ok (members.map fun member => (member.1, member.2.value), rest) := by
  have hbrace (rest : Str) : EndsNumber (125 :: rest) := by
    rintro code hcode
    cases hcode
    decide
  have hcomma (rest : Str) : EndsNumber (44 :: rest) := by
    rintro code hcode
    cases hcode
    decide
  induction members generalizing fuel with
  | nil => exact absurd rfl hne
  | cons head tail ih =>
      obtain ⟨fuel, rfl⟩ := Nat.exists_eq_succ_of_ne_zero (n := fuel) (by
        rintro rfl
        simp at hfuel)
      have hhead := hmembers head List.mem_cons_self
      cases tail with
      | nil =>
          rw [encodeMembers, scanMembers, scanMember_encode hhead (hbrace rest), ok_bind]
          rfl
      | cons next others =>
          have htail := ih (List.cons_ne_nil _ _)
            (fun member hmember => hmembers member (List.mem_cons_of_mem _ hmember))
            (Nat.le_of_succ_le_succ hfuel)
          have hskip : skipBlanks (encodeMembers (next :: others) ++ 125 :: rest) =
              encodeMembers (next :: others) ++ 125 :: rest := by
            cases others with
            | nil => rfl
            | cons last others => rfl
          have hmark : skipBlanks (44 :: (encodeMembers (next :: others) ++ 125 :: rest)) =
              44 :: (encodeMembers (next :: others) ++ 125 :: rest) := rfl
          rw [encodeMembers, List.append_assoc, List.cons_append, scanMembers,
            scanMember_encode hhead (hcomma _), ok_bind]
          · simp only [hmark, hskip, htail, ok_bind]
            rfl
          · exact List.cons_ne_nil _ _

/-- The members take their characters. -/
theorem length_le_encodeMembers : members.length ≤ (encodeMembers members).length := by
  induction members with
  | nil => exact Nat.le_refl _
  | cons head tail ih =>
      cases tail with
      | nil => simp [encodeMembers, encodeMember, encodeString]
      | cons next others =>
          have hcomma : (44 :: encodeMembers (next :: others)).length =
              (encodeMembers (next :: others)).length + 1 := List.length_cons
          rw [encodeMembers, List.length_append, List.length_cons, hcomma]
          · omega
          · exact List.cons_ne_nil _ _

/-- An object of texts and integers under distinct keys is read back. -/
theorem loads_encodeObject (hdistinct : (members.map Prod.fst).Nodup)
    (hmembers : ∀ member ∈ members, ReadableMember member) :
    loads (depth + 1) (encodeObject members) =
      .ok (.object (members.map fun member => (member.1, member.2.value))) := by
  have hscan : scanObject (scanValue depth) (encodeMembers members ++ [125]) =
      .ok (.object (members.map fun member => (member.1, member.2.value)), []) := by
    by_cases hne : members = []
    · rw [hne]
      rfl
    · have hstart : skipBlanks (encodeMembers members ++ [125]) =
          encodeMembers members ++ [125] ∧
          ∃ codes, encodeMembers members ++ [125] = 34 :: codes := by
        match members, hne with
        | [member], _ => exact ⟨rfl, _, rfl⟩
        | member :: next :: others, _ => exact ⟨rfl, _, rfl⟩
      obtain ⟨hskip, codes, hcodes⟩ := hstart
      have hread := @scanMembers_encode members depth [] hne hmembers
        ((encodeMembers members ++ [125]).length + 1) (by
          rw [List.length_append]
          have hle := @length_le_encodeMembers members
          omega)
      have hsame : (Dict.ofList (members.map fun member => (member.1, member.2.value))).items =
          members.map fun member => (member.1, member.2.value) := by
        refine Dict.items_ofList ?_
        rw [List.map_map]
        exact hdistinct
      rw [scanObject, hskip]
      rw [hcodes] at hread ⊢
      change (scanMembers (scanValue depth) ((34 :: codes).length + 1) (34 :: codes)).map _ = _
      rw [hread]
      simp only [Except.map, hsame]
  have hskip : skipBlanks (encodeObject members) = encodeObject members := rfl
  rw [loads, if_neg (by simp [encodeObject]), hskip, encodeObject, scanValue, scanOnce,
    if_neg (by decide), if_pos rfl, Option.elim_some, hscan, ok_bind]
  rfl

end Objects

section Members

variable {members : List (Str × Atom)} {key : String} {atom : Atom}

/-- The value of a key does not depend on the order of the members. -/
theorem member?_sortMembers (hdistinct : (members.map Prod.fst).Nodup)
    (hmember : (codesOf key, atom) ∈ members) :
    member? ((sortMembers members).map fun member => (member.1, member.2.value)) key =
      some atom.value := by
  have hsorted : (sortMembers members).Perm members := List.perm_insertionSort _ _
  have hkeys : ((sortMembers members).map Prod.fst).Nodup :=
    (hsorted.map Prod.fst).nodup_iff.mpr hdistinct
  have hfound : (sortMembers members).find? (fun member => member.1 == codesOf key) =
      some (codesOf key, atom) := by
    have hmem := hsorted.mem_iff.mpr hmember
    generalize sortMembers members = sorted at hkeys hmem
    induction sorted with
    | nil => cases hmem
    | cons head tail ih =>
        rw [List.map_cons, List.nodup_cons] at hkeys
        rcases List.mem_cons.mp hmem with rfl | htail
        · exact List.find?_cons_of_pos (beq_self_eq_true _)
        · have hother : head.1 ≠ codesOf key := by
            intro hsame
            exact hkeys.1 (hsame ▸ List.mem_map_of_mem htail)
          rw [List.find?_cons_of_neg (by simpa using hother)]
          exact ih hkeys.2 htail
  rw [member?, List.find?_map, Function.comp_def, hfound]
  rfl

end Members

section Ascii

theorem ascii_hexText (count number : Nat) : ∀ code ∈ hexText count number, code < 128 := by
  intro code hcode
  obtain ⟨position, -, rfl⟩ := List.mem_map.mp hcode
  have hdigit : number / 16 ^ (count - 1 - position) % 16 < 16 := Nat.mod_lt _ (by decide)
  unfold hexCode
  split_ifs <;> omega

theorem ascii_unitText (unit : Nat) : ∀ code ∈ unitText unit, code < 128 := by
  intro code hcode
  rcases List.mem_cons.mp hcode with rfl | hcode
  · decide
  · rcases List.mem_cons.mp hcode with rfl | hcode
    · decide
    · exact ascii_hexText 4 unit code hcode

theorem ascii_escapeCode (character : Nat) : ∀ code ∈ escapeCode character, code < 128 := by
  intro code hcode
  unfold escapeCode at hcode
  cases hletter : letter? character with
  | some mark =>
      rw [hletter] at hcode
      have hmark : mark < 128 := by
        unfold letter? at hletter
        split_ifs at hletter <;> cases hletter <;> omega
      simp only [List.mem_cons, List.not_mem_nil, or_false] at hcode
      omega
  | none =>
      rw [hletter] at hcode
      dsimp only at hcode
      split_ifs at hcode with hplain hshort
      · rw [List.mem_singleton.mp hcode]
        omega
      · exact ascii_unitText _ code hcode
      · exact (List.mem_append.mp hcode).elim (ascii_unitText _ code) (ascii_unitText _ code)

theorem ascii_encodeString (codes : Str) : ∀ code ∈ encodeString codes, code < 128 := by
  intro code hcode
  unfold encodeString at hcode
  rcases List.mem_append.mp hcode with hcode | hcode
  · rcases List.mem_cons.mp hcode with rfl | hcode
    · decide
    · obtain ⟨character, -, hcharacter⟩ := List.mem_flatMap.mp hcode
      exact ascii_escapeCode character code hcharacter
  · rw [List.mem_singleton.mp hcode]
    decide

theorem ascii_showInt (value : ℤ) : ∀ code ∈ showInt value, code < 128 := by
  intro code hcode
  have hdigits : ∀ code ∈ showNat value.natAbs, code < 128 := by
    intro code hcode
    have hdigit := digit_of_mem_showNat hcode
    omega
  unfold showInt at hcode
  split_ifs at hcode
  · rcases List.mem_cons.mp hcode with rfl | hcode
    · decide
    · exact hdigits code hcode
  · exact hdigits code hcode

theorem ascii_encodeMember (member : Str × Atom) : ∀ code ∈ encodeMember member, code < 128 := by
  intro code hcode
  unfold encodeMember at hcode
  rcases List.mem_append.mp hcode with hcode | hcode
  · exact ascii_encodeString _ code hcode
  · rcases List.mem_cons.mp hcode with rfl | hcode
    · decide
    · cases hvalue : member.2 with
      | text codes => exact ascii_encodeString codes code (by rwa [hvalue] at hcode)
      | number value => exact ascii_showInt value code (by rwa [hvalue] at hcode)

/-- What is stored is ASCII. -/
theorem ascii_encodeObject (members : List (Str × Atom)) :
    ∀ code ∈ encodeObject members, code < 128 := by
  have hall : ∀ code ∈ encodeMembers members, code < 128 := by
    fun_induction encodeMembers members with
    | case1 => simp
    | case2 member => exact ascii_encodeMember member
    | case3 member rest _ ih =>
        intro code hcode
        rcases List.mem_append.mp hcode with hcode | hcode
        · exact ascii_encodeMember member code hcode
        · rcases List.mem_cons.mp hcode with rfl | hcode
          · decide
          · exact ih code hcode
  intro code hcode
  rcases List.mem_cons.mp hcode with rfl | hcode
  · decide
  · rcases List.mem_append.mp hcode with hcode | hcode
    · exact hall code hcode
    · rw [List.mem_singleton.mp hcode]
      decide

end Ascii

end Json
