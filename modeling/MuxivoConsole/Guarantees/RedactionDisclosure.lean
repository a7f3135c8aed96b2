/-
Which shapes of a credential the redaction hides: the output is the same for any two values.
-/
import MuxivoConsole.Guarantees.RedactionShapes

namespace MuxivoConsole

open Text Regex

/-- The characters of a token: letters and digits of ASCII, and six other ones. -/
def isTokenCode (code : Nat) : Bool :=
  isAsciiLetter code || (48 ≤ code && code ≤ 57) || code ∈ [46, 95, 126, 43, 47, 45]

def IsToken (value : Str) : Prop :=
  value ≠ [] ∧ ∀ code ∈ value, isTokenCode code = true

instance : DecidablePred IsToken := fun _ => inferInstanceAs (Decidable (_ ∧ _))

/-- The first word of a text, up to a space. -/
def firstWord (text : Str) : Str :=
  text.takeWhile fun code => !isSpaceCode code

def afterFirstWord (text : Str) : Str :=
  text.dropWhile fun code => !isSpaceCode code

/-- The text can make a value that ends before it the name of the scheme of its second word. -/
def Trails (after : Str) : Prop :=
  (firstWord after).map foldCase <:+ codesOf "bearer" ∧
    ((afterFirstWord after).dropWhile isSpaceCode).head?.any isBearerCode = true

instance : DecidablePred Trails := fun _ => inferInstanceAs (Decidable (_ ∧ _))

section Values

variable {alphabet : Alphabet} {value front rest blanks after : Str} {previous : Option Nat}
  {mark : Nat}

theorem isTokenCode_iff {code : Nat} : isTokenCode code = true ↔
    isAsciiLetter code = true ∨ (48 ≤ code ∧ code ≤ 57) ∨ code = 46 ∨ code = 95 ∨ code = 126 ∨
      code = 43 ∨ code = 47 ∨ code = 45 := by
  simp [isTokenCode, or_assoc]

theorem bearer_of_token {code : Nat} (htoken : isTokenCode code = true) :
    isBearerCode code = true := by
  rw [isTokenCode_iff, isAsciiLetter_iff] at htoken
  rw [isBearerCode_iff, isAlphanumericCode_iff]
  omega

theorem value_of_token {code : Nat} (htoken : isTokenCode code = true) :
    isValueCode code = true ∧ ¬ isSeparatorCode code = true := by
  rw [isTokenCode_iff, isAsciiLetter_iff] at htoken
  rw [isSeparatorCode_iff]
  refine ⟨?_, by omega⟩
  simp only [isValueCode_iff, Bool.eq_false_iff, ne_eq, isQuoteCode_iff, isSpaceCode_iff]
  omega

theorem IsToken.solid (htoken : IsToken value) : Solid value := fun code hcode =>
  not_isSpaceCode_of_isHeaderCode
    (isHeaderCode_of_isValueCode (value_of_token (htoken.2 code hcode)).1)

theorem firstWord_append (text : Str) : firstWord text ++ afterFirstWord text = text :=
  List.takeWhile_append_dropWhile

theorem firstWord_letters (hafter : IsSurrounding alphabet after) :
    ∀ code ∈ firstWord after, alphabet.isLetter code = true := by
  intro code hcode
  have hspace := List.mem_takeWhile_imp hcode
  refine (hafter code ((List.takeWhile_prefix _).subset hcode)).resolve_left ?_
  simpa using hspace

theorem afterFirstWord_head (text : Str) :
    ∀ code ∈ (afterFirstWord text).head?, isSpaceCode code = true := by
  intro code hcode
  have hfirst := List.head?_dropWhile_not (fun code => !isSpaceCode code) text
  rw [afterFirstWord] at hcode
  rw [Option.mem_def.mp hcode] at hfirst
  simpa using hfirst

theorem unseparated_surrounding (hafter : IsSurrounding alphabet after) : Unseparated after := by
  intro code hcode
  rcases hafter code hcode with hspace | hletter
  · exact not_isSeparatorCode_of_isSpaceCode hspace
  · exact Alphabet.not_separator_of_letter hletter

/-- The first pass brings no separators about. -/
theorem unseparated_bearerFrom (hrest : Unseparated rest) :
    Unseparated (bearerFrom alphabet.isWord previous rest) :=
  forall_mem_substituteFrom flatten_bearerMatch_ne_nil (fun _ _ => unseparated_mask) hrest

theorem unseparated_of_token (htoken : IsToken value) : Unseparated value :=
  fun code hcode => (value_of_token (htoken.2 code hcode)).2

/-- The word at the beginning of a text stays if no end of it introduces a credential. -/
theorem bearerFrom_firstWord (hsolid : Solid (value ++ firstWord after))
    (hends : ∀ taken left, taken ++ left = value ++ firstWord after →
      IsBearer alphabet.isWord (lastOr previous taken) left → ¬ GoesOn (afterFirstWord after)) :
    bearerFrom alphabet.isWord previous (value ++ after) =
      value ++ firstWord after ++ bearerFrom alphabet.isWord none (afterFirstWord after) := by
  have hhead := afterFirstWord_head after
  have hspaces : ∀ code ∈ (afterFirstWord after).head?, ¬ isAlphanumericCode code = true := by
    intro code hcode halphanumeric
    refine not_isKeyCode_of_isSpaceCode (hhead code hcode) ?_
    rw [isKeyCode_iff]
    exact Or.inl halphanumeric
  have htext : value ++ after = (value ++ firstWord after) ++ afterFirstWord after := by
    rw [List.append_assoc, firstWord_append]
  rw [htext, bearerFrom_solid hsolid hspaces hends]
  congr 1
  exact bearerFrom_eq_of_head fun code hcode => (foldCase_of_isSpaceCode (hhead code hcode)).2

/-- A value stays if what comes after it cannot make it the name of a scheme. -/
theorem bearerFrom_value (htoken : IsToken value) (hafter : IsSurrounding alphabet after)
    (htrails : ¬ Trails after) :
    bearerFrom alphabet.isWord previous (value ++ after) =
      value ++ firstWord after ++ bearerFrom alphabet.isWord none (afterFirstWord after) := by
  have hletters := firstWord_letters hafter
  have hsolid : Solid (value ++ firstWord after) := by
    intro code hcode
    rcases List.mem_append.mp hcode with hcode | hcode
    · exact htoken.solid code hcode
    · exact Alphabet.not_space_of_letter (hletters code hcode)
  refine bearerFrom_firstWord hsolid fun taken left hparts hbearer hgoes => htrails ⟨?_, hgoes.2⟩
  rcases List.append_eq_append_iff.mp hparts with ⟨middle, -, hleft⟩ | ⟨middle, htaken, hword⟩
  · rw [← hbearer.1, hleft, List.map_append]
    exact List.suffix_append _ _
  · by_cases hne : middle = []
    · rw [hword, hne, List.nil_append, hbearer.1]
    · rw [htaken, lastOr_append] at hbearer
      exact absurd hbearer (not_isBearer_inside
        (fun code hcode => hletters code (by rw [hword]; exact List.mem_append_left _ hcode)) hne)

/-- Letters other than `b` stay, whatever follows. -/
theorem bearerFrom_letter (code : Nat) (hcode : code = 97 ∨ code = 99) :
    bearerFrom alphabet.isWord previous (code :: after) =
      code :: bearerFrom alphabet.isWord (some 97) after := by
  have hword (letter : Nat) (hletter : letter = 97 ∨ letter = 99) :
      alphabet.isWord letter = true := by
    rw [alphabet.word_ascii letter (by omega)]
    rcases hletter with rfl | rfl <;> decide
  have hnone : match? (bearerPattern alphabet.isWord) previous (code :: after) = none := by
    refine match?_bearerPattern_eq_none ?_
    rintro other hother
    cases hother
    rcases hcode with rfl | rfl <;> decide
  rw [bearerFrom, substituteFrom_none hnone]
  congr 1
  refine substituteFrom_congr ?_
  rw [match?_bearerPattern, match?_bearerPattern, Option.any_some, Option.any_some,
    hword code hcode, hword 97 (Or.inl rfl)]

/-- Another letter than `b` in front of a word keeps it from introducing a credential. -/
theorem bearerFrom_kept (hafter : IsSurrounding alphabet after) :
    bearerFrom alphabet.isWord previous ([97] ++ after) =
      [97] ++ firstWord after ++ bearerFrom alphabet.isWord none (afterFirstWord after) := by
  have hletter : alphabet.isLetter 97 = true := by
    rw [alphabet.letter_ascii 97 (by decide)]
    decide
  have hletters : ∀ code ∈ [97] ++ firstWord after, alphabet.isLetter code = true := by
    intro code hcode
    rcases List.mem_append.mp hcode with hcode | hcode
    · rwa [List.mem_singleton.mp hcode]
    · exact firstWord_letters hafter code hcode
  refine bearerFrom_firstWord (fun code hcode => Alphabet.not_space_of_letter (hletters code hcode))
    fun taken left hparts hbearer => ?_
  by_cases hne : taken = []
  · rw [hne, List.nil_append] at hparts
    rw [hparts] at hbearer
    have hhead := congrArg List.head? hbearer.1
    exact absurd (Option.some.inj hhead) (by decide)
  · refine absurd hbearer (not_isBearer_inside (fun code hcode => hletters code ?_) hne)
    rw [← hparts]
    exact List.mem_append_left _ hcode

/-- The end of the name of a scheme, behind a character that is part of no word. -/
def schemeEnd (after : Str) : Str :=
  46 :: (codesOf "bearer").take (6 - (firstWord after).length)

theorem schemeEnd_token : IsToken (schemeEnd after) := by
  refine ⟨List.cons_ne_nil _ _, fun code hcode => ?_⟩
  rcases List.mem_cons.mp hcode with rfl | hcode
  · decide
  · have hletters : ∀ letter ∈ codesOf "bearer", isTokenCode letter = true := by decide
    exact hletters code (List.mem_of_mem_take hcode)

/-- A value that the first pass takes for the name of a scheme. -/
theorem bearerFrom_schemeEnd (hafter : IsSurrounding alphabet after) (htrails : Trails after) :
    ∃ rest, bearerFrom alphabet.isWord previous (schemeEnd after ++ after) =
      (46 :: codesOf "Bearer") ++ 32 :: (redactedSecret ++ bearerFrom alphabet.isWord none rest) ∧
        ∀ code ∈ rest, code ∈ after := by
  obtain ⟨hsuffix, hgoes⟩ := htrails
  have hlength : (firstWord after).length ≤ 6 := by
    have hle := hsuffix.length_le
    rwa [List.length_map] at hle
  set begins := (codesOf "bearer").take (6 - (firstWord after).length) with hbegins
  have hword : (begins ++ firstWord after).map foldCase = codesOf "bearer" := by
    obtain ⟨init, hinit⟩ := hsuffix
    have hsame : init.length = 6 - (firstWord after).length := by
      have htotal := congrArg List.length hinit
      rw [List.length_append, List.length_map] at htotal
      have hsix : (codesOf "bearer").length = 6 := by decide
      omega
    have hfolds : (codesOf "bearer").map foldCase = codesOf "bearer" := by decide
    rw [List.map_append, hbegins, List.map_take, hfolds, ← hsame, ← hinit, List.take_left']
    rfl
  have hsolid : Solid ([46] ++ (begins ++ firstWord after)) := by
    intro code hcode
    rcases List.mem_append.mp hcode with hcode | hcode
    · rw [List.mem_singleton.mp hcode]
      decide
    · rcases List.mem_append.mp hcode with hcode | hcode
      · exact schemeEnd_token.solid code (List.mem_cons_of_mem _ hcode)
      · exact Alphabet.not_space_of_letter (firstWord_letters hafter code hcode)
  have hbearer : IsBearer alphabet.isWord (lastOr previous [46]) (begins ++ firstWord after) := by
    refine ⟨hword, ?_⟩
    have hpoint : alphabet.isWord 46 = false := by
      rw [alphabet.word_ascii 46 (by decide)]
      decide
    cases hparts : begins ++ firstWord after with
    | nil => rw [hparts] at hword; exact absurd hword (by decide)
    | cons first others =>
        have hfold : foldCase first = 98 := by
          rw [hparts] at hword
          have hhead := congrArg List.head? hword
          rw [List.map_cons, List.head?_cons] at hhead
          exact Option.some.inj (hhead.trans (by decide))
        simp [lastOr, hpoint, Alphabet.word_of_fold hfold]
  have hgoes' : GoesOn (afterFirstWord after) := by
    refine ⟨?_, hgoes⟩
    cases hrest : afterFirstWord after with
    | nil => rw [hrest] at hgoes; simp at hgoes
    | cons code rest => exact afterFirstWord_head after code (by rw [hrest]; rfl)
  refine ⟨((afterFirstWord after).dropWhile isSpaceCode).dropWhile isBearerCode, ?_, ?_⟩
  · have htext : schemeEnd after ++ after =
        [46] ++ ((begins ++ firstWord after) ++ afterFirstWord after) := by
      rw [List.append_assoc, firstWord_append]
      rfl
    have hmask : codesOf "Bearer " = codesOf "Bearer" ++ [32] := by decide
    rw [htext, bearerFrom_bearer hsolid hbearer hgoes', hmask]
    simp
  · intro code hcode
    have hdrop := (List.dropWhile_suffix _).subset ((List.dropWhile_suffix _).subset hcode)
    exact (List.dropWhile_suffix _).subset hdrop

/-- The pass keeps the first character or writes the name of a scheme. -/
theorem bearerFrom_head? (code : Nat) (codes : Str) :
    (bearerFrom alphabet.isWord previous (code :: codes)).head? = some code ∨
      (bearerFrom alphabet.isWord previous (code :: codes)).head? = some 66 := by
  cases hmatch : match? (bearerPattern alphabet.isWord) previous (code :: codes) with
  | none =>
      rw [bearerFrom, substituteFrom_none hmatch]
      exact Or.inl rfl
  | some result =>
      have hmask : codesOf "Bearer " ++ redactedSecret =
          66 :: (codesOf "earer " ++ redactedSecret) := by decide
      rw [bearerFrom, substituteFrom_match hmatch
        (flatten_bearerMatch_ne_nil _ _ _ _ hmatch), hmask]
      exact Or.inr rfl

/-- What comes after a value that goes on has a space first, and then no bracket. -/
theorem bearerFrom_afterFirstWord (hafter : IsSurrounding alphabet after) (htrails : Trails after) :
    ∃ blank next others, bearerFrom alphabet.isWord none (afterFirstWord after) =
      blank :: next :: others ∧ next ≠ 91 := by
  have hmem : ∀ code ∈ afterFirstWord after, code ≠ 91 := by
    rintro code hcode rfl
    rcases hafter 91 ((List.dropWhile_suffix _).subset hcode) with hspace | hletter
    · exact absurd hspace (by decide)
    · rw [alphabet.letter_ascii 91 (by decide)] at hletter
      exact absurd hletter (by decide)
  obtain ⟨-, hgoes⟩ := htrails
  have hhead := afterFirstWord_head after
  match hrest : afterFirstWord after with
  | [] => rw [hrest] at hgoes; simp at hgoes
  | [blank] =>
      rw [hrest] at hgoes hhead
      rw [List.dropWhile_cons_of_pos (hhead blank rfl)] at hgoes
      simp at hgoes
  | blank :: code :: codes =>
      rw [hrest] at hhead hmem
      rw [bearerFrom_space (hhead blank rfl)]
      have hfirst := @bearerFrom_head? alphabet (some blank) code codes
      cases hscan : bearerFrom alphabet.isWord (some blank) (code :: codes) with
      | nil => rw [hscan] at hfirst; simp at hfirst
      | cons next others =>
          refine ⟨blank, next, others, rfl, ?_⟩
          rw [hscan] at hfirst
          rintro rfl
          rcases hfirst with hsame | hsame
          · exact hmem code (by simp) (Option.some.inj hsame).symm
          · exact absurd (Option.some.inj hsame) (by decide)

end Values

section Passes

variable {alphabet : Alphabet} {value front rest blanks after : Str} {previous : Option Nat}
  {mark : Nat}

/-- The text begins with a space, if it is not empty. -/
def BeginsOpen (codes : Str) : Prop :=
  ∀ code ∈ codes.head?, isSpaceCode code = true

theorem value_of_redacted : ∀ code ∈ redactedSecret, isValueCode code = true := by decide

theorem unseparated_redacted : Unseparated redactedSecret := by
  unfold Unseparated
  decide

/-- A value up to the next space is what a class of characters takes. -/
theorem maximal_value {accepts : Nat → Bool} (hvalue : ∀ code ∈ value, accepts code = true)
    (hspace : ∀ code, isSpaceCode code = true → accepts code = false) (hrest : BeginsOpen rest) :
    Maximal accepts (value ++ rest) value rest where
  text := rfl
  accepted := hvalue
  stop := by
    intro code hcode haccepts
    rw [hspace code (hrest code hcode)] at haccepts
    cases haccepts

theorem value_of_space {code : Nat} (hspace : isSpaceCode code = true) :
    isValueCode code = false := by
  rw [Bool.eq_false_iff, ne_eq, isValueCode_iff]
  intro hvalue
  rw [hvalue.2.1] at hspace
  cases hspace

theorem header_of_space {code : Nat} (hspace : isSpaceCode code = true) :
    isHeaderCode code = false := by
  rw [Bool.eq_false_iff, ne_eq, isHeaderCode_iff]
  intro hheader
  rw [hheader.2.2] at hspace
  cases hspace

/-- Behind a key the last pass masks a value up to the next space. -/
theorem keysFrom_value (hfront : Unseparated front) (hsolid : EndsSolid front)
    (hmark : isSeparatorCode mark = true) (hkey : EndsKey alphabet.isWord none front)
    (hblanks : ∀ code ∈ blanks, isSpaceCode code = true) (hne : value ≠ [])
    (hvalue : ∀ code ∈ value, isValueCode code = true) (hrest : Unseparated rest)
    (hopen : BeginsOpen rest) :
    keysFrom alphabet.isWord none (front ++ mark :: (blanks ++ (value ++ rest))) =
      front ++ mark :: (blanks ++ (redactedSecret ++ rest)) := by
  have hquote : leadingQuote rest = [] := by
    cases rest with
    | nil => rfl
    | cons code rest =>
        have hspace := hopen code rfl
        rw [leadingQuote, List.head?_cons, Option.any_some, if_neg]
        rw [isQuoteCode_iff]
        rw [isSpaceCode_iff] at hspace
        omega
  have hmasked := @keysFrom_key alphabet.isWord none front mark blanks [] value [] rest hfront
    hsolid hmark hkey hblanks (Or.inl rfl) hne
    (maximal_value hvalue (fun _ => value_of_space) hopen) hquote
  simpa [keysFrom_unseparated hrest] using hmasked

/-- A value that the two later passes find behind a name is masked. -/
theorem passes_recognized (hfront : Unseparated front) (hsolid : EndsSolid front)
    (hmark : isSeparatorCode mark = true) (hname : Recognized alphabet front)
    (hblanks : ∀ code ∈ blanks, isSpaceCode code = true) (hne : value ≠ [])
    (hvalue : ∀ code ∈ value, isValueCode code = true) (hunseparated : Unseparated value)
    (hrest : Unseparated rest) (hopen : BeginsOpen rest) :
    keysFrom alphabet.isWord none (headersFrom (front ++ mark :: (blanks ++ (value ++ rest)))) =
      front ++ mark :: (blanks ++ (redactedSecret ++ rest)) := by
  by_cases hheader : EndsHeader front
  · have hsolid' : ∀ code ∈ value, isHeaderCode code = true := fun code hcode =>
      isHeaderCode_of_isValueCode (hvalue code hcode)
    have hspaces : Maximal isSpaceCode (blanks ++ (value ++ rest)) blanks (value ++ rest) := by
      refine ⟨rfl, hblanks, fun code hcode hspace => ?_⟩
      rw [head?_of_ne_nil hne] at hcode
      have hbad := value_of_space hspace
      rw [hvalue code (List.mem_of_mem_head? hcode)] at hbad
      cases hbad
    have hword := maximal_value hsolid' (fun _ => header_of_space) hopen
    obtain ⟨htake, hdrop⟩ := maximal_iff.mp hspaces
    obtain ⟨htake', hdrop'⟩ := maximal_iff.mp hword
    obtain ⟨init, word, hsplit, hletters⟩ := hheader
    have hheaders := @headersFrom_header init word (blanks ++ (value ++ rest)) mark
      (hsplit ▸ hfront) hmark hletters (by rw [← hdrop, ← htake']; exact hne)
    rw [← hsplit, ← htake, ← hdrop, ← hdrop', headersFrom_unseparated hrest] at hheaders
    rw [hheaders]
    by_cases hkey : EndsKey alphabet.isWord none front
    · exact keysFrom_value hfront hsolid hmark hkey hblanks (by decide) value_of_redacted hrest
        hopen
    · rw [keysFrom_separator hfront hsolid hmark hkey, keysFrom_unseparated]
      exact unseparated_append (unseparated_spaces hblanks)
        (unseparated_append unseparated_redacted hrest)
  · rw [headersFrom_separator hfront hsolid hmark hheader, headersFrom_unseparated]
    · exact keysFrom_value hfront hsolid hmark (hname.resolve_left hheader) hblanks hne hvalue
        hrest hopen
    · exact unseparated_append (unseparated_spaces hblanks)
        (unseparated_append hunseparated hrest)

/-- Behind anything else than a name, the two later passes change nothing. -/
theorem passes_unrecognized (hfront : Unseparated front) (hsolid : EndsSolid front)
    (hmark : isSeparatorCode mark = true) (hname : ¬ Recognized alphabet front)
    (hrest : Unseparated rest) :
    keysFrom alphabet.isWord none (headersFrom (front ++ mark :: rest)) =
      front ++ mark :: rest := by
  rw [headersFrom_separator hfront hsolid hmark fun hheader => hname (Or.inl hheader),
    headersFrom_unseparated hrest,
    keysFrom_separator hfront hsolid hmark fun hkey => hname (Or.inr hkey),
    keysFrom_unseparated hrest]

/-- `_AUTHORIZATION_HEADER_PATTERN.sub` and `_KEY_VALUE_SECRET_PATTERN.sub` -/
abbrev laterPasses (isWord : Nat → Bool) (codes : Str) : Str :=
  keysFrom isWord none (headersFrom codes)

theorem beginsOpen_bearerFrom {codes : Str} (hopen : BeginsOpen codes) :
    BeginsOpen (bearerFrom alphabet.isWord previous codes) := by
  cases codes with
  | nil => exact hopen
  | cons code codes =>
      have hspace := hopen code rfl
      rw [bearerFrom_space hspace]
      rintro other hother
      cases hother
      exact hspace

theorem unseparated_afterFirstWord (hafter : IsSurrounding alphabet after) :
    Unseparated (afterFirstWord after) := fun code hcode =>
  unseparated_surrounding hafter code ((List.dropWhile_suffix _).subset hcode)

/-- A text that does not depend on the value, but for where the value stands. -/
theorem not_same_of_kept {text : Str → Str} {init : Str} {rest : Nat → Str}
    (hkept : ∀ code, code = 97 ∨ code = 99 → text [code] = init ++ code :: rest code) :
    ¬ ∀ value other, IsToken value → IsToken other → text value = text other := by
  intro hsame
  have htexts := hsame [97] [99] (by decide) (by decide)
  rw [hkept 97 (Or.inl rfl), hkept 99 (Or.inr rfl), List.append_cancel_left_eq] at htexts
  exact absurd (List.cons.inj htexts).1 (by decide)

/-- A value behind a separator and spaces is hidden if the later passes find a name there, and if
the first pass cannot take the value for the name of a scheme. -/
theorem same_value_iff {text : Str → Str} (hafter : IsSurrounding alphabet after)
    (hfront : Unseparated front) (hsolid : EndsSolid front) (hmark : isSeparatorCode mark = true)
    (hblanks : ∀ code ∈ blanks, isSpaceCode code = true)
    (htext : ∀ value, text value =
      front ++ mark :: (blanks ++ bearerFrom alphabet.isWord previous (value ++ after))) :
    (∀ value other, IsToken value → IsToken other →
        laterPasses alphabet.isWord (text value) = laterPasses alphabet.isWord (text other)) ↔
      Recognized alphabet front ∧ ¬ Trails after := by
  have hrest : Unseparated (bearerFrom alphabet.isWord none (afterFirstWord after)) :=
    unseparated_bearerFrom (unseparated_afterFirstWord hafter)
  have hopen : BeginsOpen (bearerFrom alphabet.isWord none (afterFirstWord after)) :=
    beginsOpen_bearerFrom (afterFirstWord_head after)
  have hword (value : Str) (htoken : IsToken value) :
      value ++ firstWord after ≠ [] ∧
        (∀ code ∈ value ++ firstWord after, isValueCode code = true) ∧
          Unseparated (value ++ firstWord after) := by
    refine ⟨by simp [htoken.1], fun code hcode => ?_, unseparated_append
      (unseparated_of_token htoken) (unseparated_letters (firstWord_letters hafter))⟩
    rcases List.mem_append.mp hcode with hcode | hcode
    · exact (value_of_token (htoken.2 code hcode)).1
    · exact Alphabet.value_of_letter (firstWord_letters hafter code hcode)
  by_cases hname : Recognized alphabet front
  · by_cases htrails : Trails after
    · refine iff_of_false (fun hsame => ?_) fun hboth => hboth.2 htrails
      have htexts := hsame [97] (schemeEnd after) (by decide) schemeEnd_token
      obtain ⟨left, hscan, hleft⟩ := @bearerFrom_schemeEnd _ _ previous hafter htrails
      have hunseparated : Unseparated left := fun code hcode =>
        unseparated_surrounding hafter code (hleft code hcode)
      obtain ⟨hne, hvalue, hseparated⟩ := hword [97] (by decide)
      have hscheme : 46 :: codesOf "Bearer" ≠ [] ∧
          (∀ code ∈ 46 :: codesOf "Bearer", isValueCode code = true) ∧
            Unseparated (46 :: codesOf "Bearer") := by
        unfold Unseparated
        decide
      have hmask :
          Unseparated (32 :: (redactedSecret ++ bearerFrom alphabet.isWord none left)) := by
        rw [← List.singleton_append]
        refine unseparated_append ?_ (unseparated_append unseparated_redacted
          (unseparated_bearerFrom hunseparated))
        unfold Unseparated
        decide
      have hspace :
          BeginsOpen (32 :: (redactedSecret ++ bearerFrom alphabet.isWord none left)) := by
        rintro code hcode
        cases hcode
        decide
      rw [htext, htext, bearerFrom_kept hafter, hscan, laterPasses, laterPasses,
        passes_recognized hfront hsolid hmark hname hblanks hne hvalue hseparated hrest hopen,
        passes_recognized hfront hsolid hmark hname hblanks hscheme.1 hscheme.2.1 hscheme.2.2
          hmask hspace] at htexts
      obtain ⟨blank, next, others, hafterwards, hnext⟩ := bearerFrom_afterFirstWord hafter htrails
      rw [hafterwards, List.append_cancel_left_eq, List.cons.injEq, List.append_cancel_left_eq,
        List.append_cancel_left_eq, redactedSecret_eq] at htexts
      exact hnext (List.cons.inj (List.cons.inj htexts.2).2).1
    · refine iff_of_true (fun value other hvalue hother => ?_) ⟨hname, htrails⟩
      obtain ⟨hne, hcodes, hseparated⟩ := hword value hvalue
      obtain ⟨hne', hcodes', hseparated'⟩ := hword other hother
      rw [htext, htext, bearerFrom_value hvalue hafter htrails,
        bearerFrom_value hother hafter htrails, laterPasses, laterPasses,
        passes_recognized hfront hsolid hmark hname hblanks hne hcodes hseparated hrest hopen,
        passes_recognized hfront hsolid hmark hname hblanks hne' hcodes' hseparated' hrest hopen]
  · refine iff_of_false (@not_same_of_kept _ (front ++ mark :: blanks)
      (fun _ => bearerFrom alphabet.isWord (some 97) after) fun code hcode => ?_)
      fun hboth => hname hboth.1
    have hkept : Unseparated (blanks ++ code :: bearerFrom alphabet.isWord (some 97) after) := by
      refine unseparated_append (unseparated_spaces hblanks) ?_
      rw [← List.singleton_append]
      refine unseparated_append ?_ (unseparated_bearerFrom (unseparated_surrounding hafter))
      unfold Unseparated
      rcases hcode with rfl | rfl <;> decide
    rw [htext, List.singleton_append, bearerFrom_letter code hcode, laterPasses,
      passes_unrecognized hfront hsolid hmark hname hkept]
    simp

end Passes

end MuxivoConsole
