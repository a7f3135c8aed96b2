/-
Which shapes of a credential in a text the redaction hides: the words before a key decide whether
its name is still there when the later passes look for it, and the words after a value whether the
value looks like the name of a scheme.
-/
import MuxivoConsole.Guarantees.RedactionPasses

namespace MuxivoConsole

open Text Regex

/-- `[A-Za-z]` -/
def isAsciiLetter (code : Nat) : Bool :=
  (65 ≤ code && code ≤ 90) || (97 ≤ code && code ≤ 122)

/-- The letters and the word characters of Unicode, of which those in ASCII are the usual ones, and
`str.lower`. -/
structure Alphabet where
  isLetter : Nat → Bool
  isWord : Nat → Bool
  lower : Str → Str
  letter_ascii : ∀ code < 128, isLetter code = isAsciiLetter code
  word_ascii : ∀ code < 128, isWord code =
    (isAsciiLetter code || (48 ≤ code && code ≤ 57) || code == 95)
  word_of_letter : ∀ code, isLetter code = true → isWord code = true
  not_word_of_space : ∀ code, isSpaceCode code = true → isWord code = false
  lower_nil : lower [] = []

section Letters

variable {alphabet : Alphabet} {code : Nat}

theorem Alphabet.not_space_of_letter (hletter : alphabet.isLetter code = true) :
    ¬ isSpaceCode code = true := by
  intro hspace
  have hword := alphabet.word_of_letter code hletter
  rw [alphabet.not_word_of_space code hspace] at hword
  cases hword

theorem Alphabet.letter_cases (hletter : alphabet.isLetter code = true) :
    isAsciiLetter code = true ∨ 128 ≤ code := by
  by_cases hascii : code < 128
  · rw [alphabet.letter_ascii code hascii] at hletter
    exact Or.inl hletter
  · exact Or.inr (not_lt.mp hascii)

theorem isAsciiLetter_iff : isAsciiLetter code = true ↔
    (65 ≤ code ∧ code ≤ 90) ∨ (97 ≤ code ∧ code ≤ 122) := by
  simp [isAsciiLetter]

/-- Letters are part of any value. -/
theorem Alphabet.value_of_letter (hletter : alphabet.isLetter code = true) :
    isValueCode code = true := by
  have hspace := Alphabet.not_space_of_letter hletter
  have hcases := Alphabet.letter_cases hletter
  rw [isAsciiLetter_iff] at hcases
  simp only [isValueCode_iff, Bool.eq_false_iff, ne_eq, isQuoteCode_iff]
  refine ⟨?_, hspace, ?_, ?_, ?_, ?_⟩ <;> omega

theorem Alphabet.not_separator_of_letter (hletter : alphabet.isLetter code = true) :
    ¬ isSeparatorCode code = true := by
  have hcases := Alphabet.letter_cases hletter
  rw [isAsciiLetter_iff] at hcases
  rw [isSeparatorCode_iff]
  omega

theorem Alphabet.word_of_fold (hfold : foldCase code = 98) : alphabet.isWord code = true := by
  have hcode : code = 66 ∨ code = 98 := by
    unfold foldCase at hfold
    split_ifs at hfold <;> omega
  rcases hcode with rfl | rfl
  · rw [alphabet.word_ascii 66 (by decide)]
    decide
  · rw [alphabet.word_ascii 98 (by decide)]
    decide

end Letters

/-- The complete words of a text, and the one at its end. -/
def wordsOf (text : Str) : List Str × Str :=
  text.foldl (fun state code =>
    if isSpaceCode code then (if state.2 = [] then state else (state.1 ++ [state.2], []))
    else (state.1, state.2 ++ [code])) ([], [])

def isBearerWord (word : Str) : Bool :=
  word.map foldCase == codesOf "bearer"

/-- The complete words end with the word `bearer`, an odd number of times. -/
def AwaitsCredential (before : Str) : Prop :=
  ((wordsOf before).1.rtakeWhile isBearerWord).length % 2 = 1

instance : DecidablePred AwaitsCredential := fun _ => inferInstanceAs (Decidable (_ = _))

section Words

variable {alphabet : Alphabet} {previous : Option Nat} {before rest word : Str} {code : Nat}

theorem wordsOf_append_space (hspace : isSpaceCode code = true) :
    wordsOf (before ++ [code]) = if (wordsOf before).2 = [] then wordsOf before
      else ((wordsOf before).1 ++ [(wordsOf before).2], []) := by
  unfold wordsOf
  rw [List.foldl_append, List.foldl_cons, List.foldl_nil, if_pos hspace]

theorem wordsOf_append_solid (hspace : ¬ isSpaceCode code = true) :
    wordsOf (before ++ [code]) = ((wordsOf before).1, (wordsOf before).2 ++ [code]) := by
  unfold wordsOf
  rw [List.foldl_append, List.foldl_cons, List.foldl_nil, if_neg hspace]

/-- A text ends with a space, if it is not empty. -/
def EndsOpen (codes : Str) : Prop :=
  ∀ code ∈ codes.getLast?, isSpaceCode code = true

/-- Inside of a word no other one begins. -/
theorem not_isBearer_inside {taken left : Str} (hword : ∀ code ∈ taken, alphabet.isLetter code)
    (hne : taken ≠ []) : ¬ IsBearer alphabet.isWord (lastOr previous taken) left := by
  rintro ⟨hletters, hboundary⟩
  obtain ⟨init, last, rfl⟩ := (List.eq_nil_or_concat taken).resolve_left hne
  have hlast : lastOr previous (init ++ [last]) = some last := by simp [lastOr]
  cases left with
  | nil => exact absurd hletters (by decide)
  | cons first others =>
      have hfold : foldCase first = 98 := by
        have hhead := congrArg List.head? hletters
        rw [List.map_cons, List.head?_cons] at hhead
        exact Option.some.inj (hhead.trans (by decide))
      rw [List.concat_eq_append, hlast] at hboundary
      simp [alphabet.word_of_letter last (hword last (by simp)),
        Alphabet.word_of_fold hfold] at hboundary

/-- Another word than `bearer` stays, with the space after it. -/
theorem bearerFrom_word (hword : ∀ code ∈ word, alphabet.isLetter code)
    (hother : word.map foldCase ≠ codesOf "bearer") (hspace : isSpaceCode code = true) :
    bearerFrom alphabet.isWord previous (word ++ code :: rest) =
      word ++ code :: bearerFrom alphabet.isWord (some code) rest := by
  have hsolid : Solid word := fun letter hletter =>
    Alphabet.not_space_of_letter (hword letter hletter)
  rw [bearerFrom_solid hsolid]
  · congr 1
    exact bearerFrom_space hspace
  · rintro letter hletter
    cases hletter
    intro halphanumeric
    refine not_isKeyCode_of_isSpaceCode hspace ?_
    rw [isKeyCode_iff]
    exact Or.inl halphanumeric
  · intro taken left htext hbearer
    by_cases hne : taken = []
    · subst hne
      rw [List.nil_append] at htext
      exact absurd (htext ▸ hbearer.1) hother
    · exact absurd hbearer (not_isBearer_inside
        (fun letter hletter => hword letter (by rw [← htext]; exact List.mem_append_left _ hletter))
        hne)

theorem bearerFrom_spaces {blanks : Str} (hblanks : ∀ code ∈ blanks, isSpaceCode code = true) :
    bearerFrom alphabet.isWord previous (blanks ++ rest) =
      blanks ++ bearerFrom alphabet.isWord (lastOr previous blanks) rest := by
  refine substituteFrom_keep fun taken blank left htext => match?_bearerPattern_eq_none ?_
  rintro other hother
  cases hother
  exact (foldCase_of_isSpaceCode (hblanks blank (by simp [← htext]))).2

end Words

section Scanning

variable {alphabet : Alphabet} {before : Str}

/-- A text of spaces and letters. -/
def IsSurrounding (alphabet : Alphabet) (text : Str) : Prop :=
  ∀ code ∈ text, isSpaceCode code = true ∨ alphabet.isLetter code = true

/-- The pass has kept or masked all complete words. -/
structure Idle (alphabet : Alphabet) (before out : Str) (previous : Option Nat) : Prop where
  unseparated : Unseparated out
  bounded : EndsOpen out
  outside : previous.any alphabet.isWord = false
  scan : ∀ rest, bearerFrom alphabet.isWord none (before ++ rest) =
    out ++ bearerFrom alphabet.isWord previous ((wordsOf before).2 ++ rest)

/-- The pass has kept or masked all complete words but the last one, which is `bearer`. -/
structure Awaiting (alphabet : Alphabet) (before out : Str) (previous : Option Nat)
    (word blanks : Str) : Prop where
  unseparated : Unseparated out
  outside : previous.any alphabet.isWord = false
  letters : word.map foldCase = codesOf "bearer"
  spaces : ∀ code ∈ blanks, isSpaceCode code = true
  blanks_ne : blanks ≠ []
  scan : ∀ rest, bearerFrom alphabet.isWord none (before ++ rest) =
    out ++ bearerFrom alphabet.isWord previous (word ++ (blanks ++ ((wordsOf before).2 ++ rest)))

/-- How the pass reads the surrounding text in front of a key. -/
inductive Scanned (alphabet : Alphabet) (before : Str) : Prop where
  | idle {out : Str} {previous : Option Nat} :
      ¬ AwaitsCredential before → Idle alphabet before out previous → Scanned alphabet before
  | awaiting {out : Str} {previous : Option Nat} {word blanks : Str} :
      AwaitsCredential before → Awaiting alphabet before out previous word blanks →
        Scanned alphabet before

theorem awaitsCredential_of_words_eq {other : Str}
    (hwords : (wordsOf before).1 = (wordsOf other).1) :
    AwaitsCredential before ↔ AwaitsCredential other := by
  rw [AwaitsCredential, AwaitsCredential, hwords]

theorem awaitsCredential_append {word : Str} {other : Str}
    (hwords : (wordsOf other).1 = (wordsOf before).1 ++ [word]) :
    AwaitsCredential other ↔ word.map foldCase = codesOf "bearer" ∧ ¬ AwaitsCredential before := by
  have hbearer : isBearerWord word = true ↔ word.map foldCase = codesOf "bearer" := by
    simp [isBearerWord]
  rw [AwaitsCredential, AwaitsCredential, hwords]
  by_cases hword : isBearerWord word = true
  · rw [List.rtakeWhile_concat_pos _ _ _ hword, List.length_append, List.length_singleton,
      ← hbearer]
    simp only [hword, true_and]
    omega
  · rw [List.rtakeWhile_concat_neg _ _ _ hword, ← hbearer]
    simp [hword]

/-- The word at the end of a surrounding text is made of letters. -/
theorem word_letters (hbefore : IsSurrounding alphabet before) :
    (∀ code ∈ (wordsOf before).2, alphabet.isLetter code = true) ∧
      ∃ stem, before = stem ++ (wordsOf before).2 ∧ EndsOpen stem := by
  induction before using List.reverseRecOn with
  | nil => exact ⟨by simp [wordsOf], [], by simp [wordsOf], by simp [EndsOpen]⟩
  | append_singleton before code ih =>
      obtain ⟨hletters, stem, hstem, hopen⟩ := ih fun other hother =>
        hbefore other (List.mem_append_left _ hother)
      by_cases hspace : isSpaceCode code = true
      · have hnone : (wordsOf (before ++ [code])).2 = [] := by
          rw [wordsOf_append_space hspace]
          split_ifs with hword
          · exact hword
          · rfl
        rw [hnone]
        refine ⟨by simp, before ++ [code], by simp, ?_⟩
        simpa [EndsOpen] using hspace
      · have hletter := (hbefore code (by simp)).resolve_left hspace
        rw [wordsOf_append_solid hspace]
        refine ⟨?_, stem, ?_, hopen⟩
        · intro other hother
          rcases List.mem_append.mp hother with hother | hother
          · exact hletters other hother
          · rw [List.mem_singleton.mp hother]
            exact hletter
        · rw [← List.append_assoc, ← hstem]

theorem unseparated_append {first second : Str} (hfirst : Unseparated first)
    (hsecond : Unseparated second) : Unseparated (first ++ second) := by
  intro code hcode
  rcases List.mem_append.mp hcode with hcode | hcode
  · exact hfirst code hcode
  · exact hsecond code hcode

theorem unseparated_mask : Unseparated (codesOf "Bearer " ++ redactedSecret) := by
  unfold Unseparated
  decide

theorem unseparated_letters {word : Str} (hword : ∀ code ∈ word, alphabet.isLetter code = true) :
    Unseparated word := fun code hcode => Alphabet.not_separator_of_letter (hword code hcode)

theorem unseparated_spaces {blanks : Str} (hblanks : ∀ code ∈ blanks, isSpaceCode code = true) :
    Unseparated blanks := fun code hcode => not_isSeparatorCode_of_isSpaceCode (hblanks code hcode)

theorem endsOpen_append {first : Str} {code : Nat} (hspace : isSpaceCode code = true) :
    EndsOpen (first ++ [code]) := by
  simpa [EndsOpen] using hspace

theorem lastOr_spaces {previous : Option Nat} {blanks : Str}
    (hblanks : ∀ code ∈ blanks, isSpaceCode code = true) (hne : blanks ≠ []) :
    ∃ code, isSpaceCode code = true ∧ lastOr previous blanks = some code := by
  obtain ⟨init, last, rfl⟩ := (List.eq_nil_or_concat blanks).resolve_left hne
  exact ⟨last, hblanks last (by simp), by simp [lastOr]⟩

/-- What the pass makes of `bearer`, spaces and what comes next. -/
theorem Awaiting.go {out word blanks : Str} {previous : Option Nat}
    (hawaiting : Awaiting alphabet before out previous word blanks) {rest : Str}
    (hrest : (((wordsOf before).2 ++ rest).head?.any isBearerCode) = true) :
    bearerFrom alphabet.isWord none (before ++ rest) =
      out ++ (codesOf "Bearer " ++ redactedSecret ++ bearerFrom alphabet.isWord none
        (((wordsOf before).2 ++ rest).dropWhile isBearerCode)) := by
  have hfirst : ¬ (((wordsOf before).2 ++ rest).head?.any isSpaceCode) = true := by
    intro hspace
    cases hcodes : (wordsOf before).2 ++ rest with
    | nil => simp [hcodes] at hrest
    | cons code others =>
        rw [hcodes] at hrest hspace
        exact not_isBearerCode_of_isSpaceCode (by simpa using hspace) (by simpa using hrest)
  have hdrop : (blanks ++ ((wordsOf before).2 ++ rest)).dropWhile isSpaceCode =
      (wordsOf before).2 ++ rest := by
    rw [List.dropWhile_append_of_pos hawaiting.spaces]
    cases hcodes : (wordsOf before).2 ++ rest with
    | nil => rfl
    | cons code others =>
        rw [hcodes] at hfirst
        rw [List.dropWhile_cons_of_neg (by simpa using hfirst)]
  have hgoes : GoesOn (blanks ++ ((wordsOf before).2 ++ rest)) := by
    constructor
    · obtain ⟨blank, blanks', hblanks⟩ := List.exists_cons_of_ne_nil hawaiting.blanks_ne
      rw [hblanks, List.cons_append, List.head?_cons]
      exact hawaiting.spaces blank (by simp [hblanks])
    · rw [hdrop]
      exact hrest
  have hbearer : IsBearer alphabet.isWord (lastOr previous []) word := by
    refine ⟨hawaiting.letters, ?_⟩
    rw [lastOr_nil, hawaiting.outside]
    obtain ⟨first, others, hword⟩ := List.exists_cons_of_ne_nil (l := word) (by
      rintro rfl
      exact absurd hawaiting.letters (by decide))
    have hfold : foldCase first = 98 := by
      have hhead := congrArg List.head? hawaiting.letters
      rw [hword, List.map_cons, List.head?_cons] at hhead
      exact Option.some.inj (hhead.trans (by decide))
    simp [hword, Alphabet.word_of_fold hfold]
  have hsolid : Solid ([] ++ word) := by
    intro code hcode hspace
    have hfold := List.mem_map_of_mem (f := foldCase) hcode
    rw [List.nil_append, hawaiting.letters] at hfold
    have hletters : ∀ letter ∈ codesOf "bearer", 97 ≤ letter ∧ letter ≤ 122 := by decide
    exact not_isKeyCode_of_isSpaceCode hspace (isKeyCode_of_foldCase (hletters _ hfold))
  have hmasked := bearerFrom_bearer hsolid hbearer hgoes
  rw [List.nil_append, List.nil_append, hdrop] at hmasked
  rw [hawaiting.scan, hmasked]

/-- What the pass makes of `bearer` and spaces if no credential comes next. -/
theorem Awaiting.stay {out word blanks : Str} {previous : Option Nat}
    (hawaiting : Awaiting alphabet before out previous word blanks) {rest : Str}
    (hspace : ¬ (((wordsOf before).2 ++ rest).head?.any isSpaceCode) = true)
    (hrest : ¬ (((wordsOf before).2 ++ rest).head?.any isBearerCode) = true) :
    ∃ code, isSpaceCode code = true ∧ bearerFrom alphabet.isWord none (before ++ rest) =
      out ++ (word ++ (blanks ++
        bearerFrom alphabet.isWord (some code) ((wordsOf before).2 ++ rest))) := by
  have hdrop : (blanks ++ ((wordsOf before).2 ++ rest)).dropWhile isSpaceCode =
      (wordsOf before).2 ++ rest := by
    rw [List.dropWhile_append_of_pos hawaiting.spaces]
    cases hcodes : (wordsOf before).2 ++ rest with
    | nil => rfl
    | cons code others =>
        rw [hcodes] at hspace
        rw [List.dropWhile_cons_of_neg (by simpa using hspace)]
  have hsolid : Solid word := by
    intro code hcode hblank
    have hfold := List.mem_map_of_mem (f := foldCase) hcode
    rw [hawaiting.letters] at hfold
    have hletters : ∀ letter ∈ codesOf "bearer", 97 ≤ letter ∧ letter ≤ 122 := by decide
    exact not_isKeyCode_of_isSpaceCode hblank (isKeyCode_of_foldCase (hletters _ hfold))
  have hhead : ∀ code ∈ (blanks ++ ((wordsOf before).2 ++ rest)).head?,
      ¬ isAlphanumericCode code = true := by
    intro code hcode halphanumeric
    rw [head?_of_ne_nil hawaiting.blanks_ne] at hcode
    refine not_isKeyCode_of_isSpaceCode
      (hawaiting.spaces code (List.mem_of_mem_head? hcode)) ?_
    rw [isKeyCode_iff]
    exact Or.inl halphanumeric
  obtain ⟨code, hcode, hlast⟩ :=
    @lastOr_spaces (lastOr previous word) blanks hawaiting.spaces hawaiting.blanks_ne
  refine ⟨code, hcode, ?_⟩
  rw [hawaiting.scan, bearerFrom_solid_of_not_goesOn hsolid hhead, bearerFrom_spaces
    hawaiting.spaces, hlast]
  rintro ⟨-, hgoes⟩
  rw [hdrop] at hgoes
  exact hrest hgoes

theorem ne_bearer_of_head {word : Str} (hword : ¬ word.head?.any isBearerCode = true) :
    word.map foldCase ≠ codesOf "bearer" := by
  intro hletters
  cases word with
  | nil => exact absurd hletters (by decide)
  | cons first others =>
      have hhead := congrArg List.head? hletters
      rw [List.map_cons, List.head?_cons] at hhead
      have hfold : foldCase first = 98 := Option.some.inj (hhead.trans (by decide))
      refine hword ?_
      rw [List.head?_cons, Option.any_some, isBearerCode_iff]
      exact Or.inl (isAlphanumericCode_of_foldCase (by omega))

theorem head_dropWhile_not_bearer (codes : Str) :
    ¬ (codes.dropWhile isBearerCode).head?.any isBearerCode = true := by
  have hstop := (@maximal_takeWhile _ isBearerCode codes).stop
  cases hdrop : codes.dropWhile isBearerCode with
  | nil => simp
  | cons code rest =>
      rw [hdrop] at hstop
      simpa using hstop code rfl

theorem dropWhile_subset {word : Str} (hword : ∀ code ∈ word, alphabet.isLetter code = true) :
    ∀ code ∈ word.dropWhile isBearerCode, alphabet.isLetter code = true :=
  fun code hcode => hword code ((List.dropWhile_suffix _).subset hcode)

/-- A space after a word that the pass has not reached yet. -/
theorem Idle.space {out : Str} {previous : Option Nat} {code : Nat}
    (hidle : Idle alphabet before out previous)
    (hletters : ∀ letter ∈ (wordsOf before).2, alphabet.isLetter letter = true)
    (hawaits : ¬ AwaitsCredential before) (hspace : isSpaceCode code = true) :
    Scanned alphabet (before ++ [code]) := by
  have hwords := @wordsOf_append_space before code hspace
  have houtside : (some code).any alphabet.isWord = false := alphabet.not_word_of_space code hspace
  by_cases hword : (wordsOf before).2 = []
  · rw [if_pos hword] at hwords
    refine @Scanned.idle _ _ (out ++ [code]) (some code) ?_
      ⟨?_, endsOpen_append hspace, houtside, fun rest => ?_⟩
    · rwa [awaitsCredential_of_words_eq (congrArg Prod.fst hwords)]
    · exact unseparated_append hidle.unseparated (unseparated_spaces (by simpa using hspace))
    · rw [List.append_assoc, hidle.scan, hwords, hword, List.nil_append, List.nil_append,
        List.singleton_append, bearerFrom_space hspace]
      simp
  · rw [if_neg hword] at hwords
    have hnew : (wordsOf (before ++ [code])).1 = (wordsOf before).1 ++ [(wordsOf before).2] :=
      congrArg Prod.fst hwords
    by_cases hbearer : (wordsOf before).2.map foldCase = codesOf "bearer"
    · refine @Scanned.awaiting _ _ out previous (wordsOf before).2 [code] ?_
        ⟨hidle.unseparated, hidle.outside, hbearer, by simpa using hspace, by simp,
          fun rest => ?_⟩
      · exact (awaitsCredential_append hnew).mpr ⟨hbearer, hawaits⟩
      · rw [List.append_assoc, hidle.scan, hwords, List.nil_append]
    · refine @Scanned.idle _ _ (out ++ (wordsOf before).2 ++ [code]) (some code) ?_
        ⟨?_, endsOpen_append hspace, houtside, fun rest => ?_⟩
      · exact fun hnow => hbearer ((awaitsCredential_append hnew).mp hnow).1
      · exact unseparated_append (unseparated_append hidle.unseparated
          (unseparated_letters hletters)) (unseparated_spaces (by simpa using hspace))
      · rw [List.append_assoc, hidle.scan, hwords, List.nil_append, List.singleton_append,
          bearerFrom_word hletters hbearer hspace]
        simp

theorem Awaiting.space {out word blanks : Str} {previous : Option Nat} {code : Nat}
    (hawaiting : Awaiting alphabet before out previous word blanks)
    (hletters : ∀ letter ∈ (wordsOf before).2, alphabet.isLetter letter = true)
    (hawaits : AwaitsCredential before) (hspace : isSpaceCode code = true) :
    Scanned alphabet (before ++ [code]) := by
  have hwords := @wordsOf_append_space before code hspace
  have houtside : (some code).any alphabet.isWord = false := alphabet.not_word_of_space code hspace
  have hblank : Unseparated [code] := unseparated_spaces (by simpa using hspace)
  by_cases hword : (wordsOf before).2 = []
  · rw [if_pos hword] at hwords
    refine @Scanned.awaiting _ _ out previous word (blanks ++ [code]) ?_
      ⟨hawaiting.unseparated, hawaiting.outside, hawaiting.letters, ?_, by simp,
        fun rest => ?_⟩
    · rwa [awaitsCredential_of_words_eq (congrArg Prod.fst hwords)]
    · intro other hother
      rcases List.mem_append.mp hother with hother | hother
      · exact hawaiting.spaces other hother
      · rwa [List.mem_singleton.mp hother]
    · rw [List.append_assoc, hawaiting.scan, hwords, hword]
      simp
  · rw [if_neg hword] at hwords
    have hnew : (wordsOf (before ++ [code])).1 = (wordsOf before).1 ++ [(wordsOf before).2] :=
      congrArg Prod.fst hwords
    have hnow : ¬ AwaitsCredential (before ++ [code]) := fun hnow =>
      ((awaitsCredential_append hnew).mp hnow).2 hawaits
    have hrest (rest : Str) : before ++ [code] ++ rest = before ++ code :: rest := by simp
    have hhead (rest : Str) : ((wordsOf before).2 ++ code :: rest).head? =
        (wordsOf before).2.head? := head?_of_ne_nil hword
    by_cases hfirst : (wordsOf before).2.head?.any isBearerCode = true
    · -- the word is the credential, as far as it goes
      have hdrop (rest : Str) : ((wordsOf before).2 ++ code :: rest).dropWhile isBearerCode =
          (wordsOf before).2.dropWhile isBearerCode ++ code :: rest := by
        rw [List.dropWhile_append]
        split_ifs with hempty
        · rw [List.isEmpty_iff.mp hempty, List.nil_append,
            List.dropWhile_cons_of_neg (not_isBearerCode_of_isSpaceCode hspace)]
        · rfl
      refine @Scanned.idle _ _ (out ++ (codesOf "Bearer " ++ redactedSecret ++
        ((wordsOf before).2.dropWhile isBearerCode ++ [code]))) (some code) hnow
          ⟨?_, ?_, houtside, fun rest => ?_⟩
      · exact unseparated_append hawaiting.unseparated (unseparated_append unseparated_mask
          (unseparated_append (unseparated_letters (dropWhile_subset hletters)) hblank))
      · rw [← List.append_assoc, ← List.append_assoc]
        exact endsOpen_append hspace
      · rw [hrest, hawaiting.go (by rw [hhead]; exact hfirst), hdrop, hwords,
          bearerFrom_word (dropWhile_subset hletters)
            (ne_bearer_of_head (head_dropWhile_not_bearer _)) hspace]
        simp
    · refine @Scanned.idle _ _ (out ++ (word ++ (blanks ++ ((wordsOf before).2 ++ [code]))))
        (some code) hnow ⟨?_, ?_, houtside, fun rest => ?_⟩
      · exact unseparated_append hawaiting.unseparated (unseparated_append
          (unseparated_of_fold hawaiting.letters (by decide)) (unseparated_append
            (unseparated_spaces hawaiting.spaces)
            (unseparated_append (unseparated_letters hletters) hblank)))
      · rw [← List.append_assoc, ← List.append_assoc, ← List.append_assoc]
        exact endsOpen_append hspace
      · have hsolid : ¬ ((wordsOf before).2 ++ code :: rest).head?.any isSpaceCode = true := by
          rw [hhead]
          obtain ⟨first, others, hcodes⟩ := List.exists_cons_of_ne_nil hword
          rw [hcodes, List.head?_cons, Option.any_some]
          exact Alphabet.not_space_of_letter (hletters first (by simp [hcodes]))
        obtain ⟨blank, -, hstay⟩ := hawaiting.stay hsolid (by rw [hhead]; exact hfirst)
        rw [hrest, hstay, hwords, bearerFrom_word hletters (ne_bearer_of_head hfirst) hspace]
        simp

/-- A surrounding text is read word by word. -/
theorem scanned (hbefore : IsSurrounding alphabet before) : Scanned alphabet before := by
  induction before using List.reverseRecOn with
  | nil =>
      exact @Scanned.idle _ _ [] none (by decide)
        ⟨by simp [Unseparated], by simp [EndsOpen], rfl, fun rest => rfl⟩
  | append_singleton before code ih =>
      have hearlier : IsSurrounding alphabet before := fun other hother =>
        hbefore other (List.mem_append_left _ hother)
      obtain ⟨hletters, -⟩ := word_letters hearlier
      by_cases hspace : isSpaceCode code = true
      · cases ih hearlier with
        | idle hawaits hidle => exact hidle.space hletters hawaits hspace
        | awaiting hawaits hawaiting => exact hawaiting.space hletters hawaits hspace
      · have hwords := @wordsOf_append_solid before code hspace
        have hsame : (wordsOf (before ++ [code])).1 = (wordsOf before).1 := by rw [hwords]
        cases ih hearlier with
        | idle hawaits hidle =>
            refine .idle (by rwa [awaitsCredential_of_words_eq hsame])
              ⟨hidle.unseparated, hidle.bounded, hidle.outside, fun rest => ?_⟩
            rw [List.append_assoc, hidle.scan, hwords, List.append_assoc]
        | awaiting hawaits hawaiting =>
            refine .awaiting (by rwa [awaitsCredential_of_words_eq hsame])
              ⟨hawaiting.unseparated, hawaiting.outside, hawaiting.letters, hawaiting.spaces,
                hawaiting.blanks_ne, fun rest => ?_⟩
            rw [List.append_assoc, hawaiting.scan, hwords, List.append_assoc]

end Scanning

section Recognition

variable {alphabet : Alphabet} {previous : Option Nat} {front rest before key : Str} {code : Nat}

/-- The text ends with what the later passes take for the name of a secret. -/
def Recognized (alphabet : Alphabet) (codes : Str) : Prop :=
  EndsHeader codes ∨ EndsKey alphabet.isWord none codes

theorem isKeyCode_of_header {word : Str} (hword : word.map foldCase = codesOf "authorization") :
    ∀ letter ∈ word, isKeyCode letter = true := by
  intro letter hletter
  have hfold := List.mem_map_of_mem (f := foldCase) hletter
  rw [hword] at hfold
  have hletters : ∀ letter ∈ codesOf "authorization", 97 ≤ letter ∧ letter ≤ 122 := by decide
  exact isKeyCode_of_foldCase (hletters _ hfold)

/-- A text of key characters at the end stands behind any other character. -/
theorem append_eq_of_key {init key : Str} (hcode : ¬ isKeyCode code = true)
    (hkey : ∀ letter ∈ key, isKeyCode letter = true)
    (htext : front ++ code :: rest = init ++ key) :
    ∃ middle, init = front ++ code :: middle ∧ rest = middle ++ key := by
  rcases List.append_eq_append_iff.mp htext with ⟨middle, hinit, hrest⟩ | ⟨middle, -, hkeyed⟩
  · cases middle with
    | nil =>
        rw [List.nil_append] at hrest
        exact absurd (hkey code (by rw [← hrest]; exact List.mem_cons_self)) hcode
    | cons head middle =>
        obtain ⟨rfl, hsame⟩ := List.cons.inj hrest
        exact ⟨middle, hinit, hsame⟩
  · refine absurd (hkey code ?_) hcode
    rw [hkeyed]
    simp

/-- Only what stands behind a character that is no part of a key counts. -/
theorem endsKey_append (hcode : ¬ isKeyCode code = true) :
    EndsKey alphabet.isWord previous (front ++ code :: rest) ↔
      EndsKey alphabet.isWord (some code) rest := by
  constructor
  · rintro ⟨init, key, htext, hboundary, hkey, hmarker⟩
    obtain ⟨middle, rfl, rfl⟩ := append_eq_of_key hcode hkey htext
    rw [lastOr_append, lastOr_cons] at hboundary
    exact ⟨middle, key, rfl, hboundary, hkey, hmarker⟩
  · rintro ⟨init, key, rfl, hboundary, hkey, hmarker⟩
    refine ⟨front ++ code :: init, key, by simp, ?_, hkey, hmarker⟩
    rwa [lastOr_append, lastOr_cons]

theorem endsHeader_append (hcode : ¬ isKeyCode code = true) :
    EndsHeader (front ++ code :: rest) ↔ EndsHeader rest := by
  constructor
  · rintro ⟨init, word, htext, hword⟩
    obtain ⟨middle, rfl, rfl⟩ := append_eq_of_key hcode (isKeyCode_of_header hword) htext
    exact ⟨middle, word, rfl, hword⟩
  · rintro ⟨init, word, rfl, hword⟩
    exact ⟨front ++ code :: init, word, by simp, hword⟩

/-- Outside of words it does not matter which character stands before. -/
theorem endsKey_outside (hprevious : previous.any alphabet.isWord = false) :
    EndsKey alphabet.isWord previous rest ↔ EndsKey alphabet.isWord none rest := by
  have hsame (init : Str) : (lastOr previous init).any alphabet.isWord =
      (lastOr none init).any alphabet.isWord := by
    rcases List.eq_nil_or_concat init with rfl | ⟨others, last, rfl⟩
    · simpa using hprevious
    · simp [lastOr]
  simp only [EndsKey, hsame]

theorem recognized_append (hcode : ¬ isKeyCode code = true)
    (houtside : alphabet.isWord code = false) :
    Recognized alphabet (front ++ code :: rest) ↔ Recognized alphabet rest := by
  rw [Recognized, Recognized, endsHeader_append hcode, endsKey_append hcode,
    endsKey_outside (by simpa using houtside)]

theorem recognized_cons_append (hcode : ¬ isKeyCode code = true) :
    Recognized alphabet (front ++ code :: rest) ↔ Recognized alphabet (code :: rest) := by
  have hnil := @endsKey_append alphabet none [] rest code hcode
  have hnil' := @endsHeader_append [] rest code hcode
  rw [List.nil_append] at hnil hnil'
  rw [Recognized, Recognized, endsHeader_append hcode, endsKey_append hcode, hnil, hnil']

/-- Only the word at the end counts. -/
theorem recognized_open (hfront : EndsOpen front) :
    Recognized alphabet (front ++ rest) ↔ Recognized alphabet rest := by
  rcases List.eq_nil_or_concat front with rfl | ⟨init, last, rfl⟩
  · rw [List.nil_append]
  · have hspace : isSpaceCode last = true := hfront last (by simp)
    rw [List.concat_eq_append, List.append_assoc, List.singleton_append]
    exact recognized_append (not_isKeyCode_of_isSpaceCode hspace)
      (alphabet.not_word_of_space last hspace)

theorem not_recognized_nil : ¬ Recognized alphabet [] := by
  rintro (⟨init, word, htext, hword⟩ | ⟨init, key, htext, -, -, hmarker⟩)
  · obtain ⟨-, rfl⟩ := List.append_eq_nil_iff.mp htext.symm
    exact absurd hword (by decide)
  · obtain ⟨-, rfl⟩ := List.append_eq_nil_iff.mp htext.symm
    exact absurd hmarker (by decide)

/-- The pass takes the key for a credential. -/
def Eaten (before key : Str) : Prop :=
  AwaitsCredential before ∧ ∀ code ∈ (wordsOf before).2 ++ key, isBearerCode code = true

instance (before key : Str) : Decidable (Eaten before key) := inferInstanceAs (Decidable (_ ∧ _))

end Recognition

section Keys

variable {alphabet : Alphabet} {before key : Str}

/-- A key is a solid text without separators that does not end the line. -/
structure IsKey (key : Str) : Prop where
  ne_nil : key ≠ []
  solid : Solid key
  unseparated : Unseparated key

theorem word_key (hbefore : IsSurrounding alphabet before) (hkey : IsKey key) :
    Solid ((wordsOf before).2 ++ key) ∧ Unseparated ((wordsOf before).2 ++ key) ∧
      (∀ first, EndsSolid (first ++ ((wordsOf before).2 ++ key))) ∧
      (Recognized alphabet (before ++ key) ↔ Recognized alphabet ((wordsOf before).2 ++ key)) := by
  obtain ⟨hletters, stem, hstem, hopen⟩ := word_letters hbefore
  refine ⟨?_, unseparated_append (unseparated_letters hletters) hkey.unseparated, ?_, ?_⟩
  · intro code hcode
    rcases List.mem_append.mp hcode with hcode | hcode
    · exact Alphabet.not_space_of_letter (hletters code hcode)
    · exact hkey.solid code hcode
  · intro first code hcode
    rw [← List.append_assoc, List.getLast?_append_of_ne_nil _ hkey.ne_nil] at hcode
    exact hkey.solid code (List.mem_of_mem_getLast? hcode)
  · have hsame : before ++ key = stem ++ ((wordsOf before).2 ++ key) := by
      rw [← List.append_assoc, ← hstem]
    rw [hsame]
    exact recognized_open hopen

/-- What stands in front of the separator after the first pass, if the key is not eaten. -/
theorem front_of_not_eaten (hbefore : IsSurrounding alphabet before) (hkey : IsKey key)
    (heaten : ¬ Eaten before key) : ∃ front, Unseparated front ∧ EndsSolid front ∧
      (Recognized alphabet front ↔ Recognized alphabet (before ++ key)) ∧
      ∀ code rest, ¬ isAlphanumericCode code = true → ¬ isSpaceCode code = true →
        bearerFrom alphabet.isWord none (before ++ (key ++ code :: rest)) =
          front ++ code :: bearerFrom alphabet.isWord (some code) rest := by
  obtain ⟨hsolid, hunseparated, hends, hwhole⟩ := word_key hbefore hkey
  rw [hwhole]
  cases scanned hbefore with
  | idle hawaits hidle =>
      rename_i out previous
      refine ⟨out ++ ((wordsOf before).2 ++ key), unseparated_append hidle.unseparated hunseparated,
        hends out, recognized_open hidle.bounded, fun code rest hletter hspace => ?_⟩
      rw [hidle.scan, ← List.append_assoc (wordsOf before).2,
        bearerFrom_solid_cons hsolid hletter hspace]
      simp
  | awaiting hawaits hawaiting =>
      rename_i out previous word blanks
      have hne : (wordsOf before).2 ++ key ≠ [] := by simp [hkey.ne_nil]
      have hhead (code : Nat) (rest : Str) :
          ((wordsOf before).2 ++ (key ++ code :: rest)).head? =
            ((wordsOf before).2 ++ key).head? := by
        rw [← List.append_assoc, head?_of_ne_nil hne]
      by_cases hfirst : ((wordsOf before).2 ++ key).head?.any isBearerCode = true
      · -- the credential ends inside of the key
        obtain ⟨other, left, hdrop⟩ := List.exists_cons_of_ne_nil
          (l := ((wordsOf before).2 ++ key).dropWhile isBearerCode) (by
            rw [ne_eq, List.dropWhile_eq_nil_iff]
            exact fun hall => heaten ⟨hawaits, hall⟩)
        have hsuffix := List.dropWhile_suffix isBearerCode (l := (wordsOf before).2 ++ key)
        rw [hdrop] at hsuffix
        obtain ⟨init, hinit⟩ := hsuffix
        have hother : ¬ isKeyCode other = true := by
          have hstop := head_dropWhile_not_bearer ((wordsOf before).2 ++ key)
          rw [hdrop, List.head?_cons, Option.any_some, isBearerCode_iff] at hstop
          rw [isKeyCode_iff]
          tauto
        have hpart : Solid (other :: left) := fun code hcode =>
          hsolid code (by rw [← hinit]; exact List.mem_append_right _ hcode)
        refine ⟨out ++ (codesOf "Bearer " ++ redactedSecret) ++ other :: left,
          unseparated_append (unseparated_append hawaiting.unseparated unseparated_mask) ?_,
          ?_, ?_, fun code rest hletter hspace => ?_⟩
        · exact (hinit ▸ hunseparated).right
        · intro code hcode
          rw [List.getLast?_append_of_ne_nil _ (List.cons_ne_nil _ _)] at hcode
          exact hpart code (List.mem_of_mem_getLast? hcode)
        · rw [recognized_cons_append hother, ← hinit, recognized_cons_append hother]
        · have hrest : ((wordsOf before).2 ++ (key ++ code :: rest)).dropWhile isBearerCode =
              other :: left ++ code :: rest := by
            rw [← List.append_assoc, List.dropWhile_append, hdrop]
            rfl
          rw [hawaiting.go (by rw [hhead]; exact hfirst), hrest,
            bearerFrom_solid_cons hpart hletter hspace]
          simp
      · obtain ⟨code, init, hcodes⟩ := List.exists_cons_of_ne_nil hne
        refine ⟨out ++ (word ++ blanks) ++ ((wordsOf before).2 ++ key), ?_, hends _, ?_,
          fun code rest hletter hspace => ?_⟩
        · exact unseparated_append (unseparated_append hawaiting.unseparated (unseparated_append
            (unseparated_of_fold hawaiting.letters (by decide))
              (unseparated_spaces hawaiting.spaces))) hunseparated
        · refine recognized_open ?_
          intro other hother
          rw [← List.append_assoc, List.getLast?_append_of_ne_nil _ hawaiting.blanks_ne] at hother
          exact hawaiting.spaces other (List.mem_of_mem_getLast? hother)
        · have hsolid' : ¬ ((wordsOf before).2 ++ (key ++ code :: rest)).head?.any isSpaceCode =
              true := by
            rw [hhead, hcodes, List.head?_cons, Option.any_some]
            exact hsolid _ (by rw [hcodes]; exact List.mem_cons_self)
          obtain ⟨blank, -, hstay⟩ := hawaiting.stay hsolid' (by rw [hhead]; exact hfirst)
          rw [hstay, ← List.append_assoc (wordsOf before).2,
            bearerFrom_solid_cons hsolid hletter hspace]
          simp

/-- What stands in front of the rest after the first pass, if the key is eaten. -/
theorem front_of_eaten (hbefore : IsSurrounding alphabet before) (hkey : IsKey key)
    (heaten : Eaten before key) : ∃ front, Unseparated front ∧ EndsSolid front ∧
      ¬ Recognized alphabet front ∧
      ∀ rest, bearerFrom alphabet.isWord none (before ++ (key ++ rest)) =
        front ++ bearerFrom alphabet.isWord none (rest.dropWhile isBearerCode) := by
  obtain ⟨hawaits, hall⟩ := heaten
  cases scanned hbefore with
  | idle hother hidle => exact absurd hawaits hother
  | awaiting hagain hawaiting =>
      rename_i out previous word blanks
      have hmask : codesOf "Bearer " ++ redactedSecret = codesOf "Bearer [REDACTED" ++ [93] := by
        decide
      refine ⟨out ++ (codesOf "Bearer " ++ redactedSecret),
        unseparated_append hawaiting.unseparated unseparated_mask, ?_, ?_, fun rest => ?_⟩
      · rw [hmask]
        intro code hcode
        simp only [List.getLast?_append, List.getLast?_singleton, Option.some_or,
          Option.mem_def, Option.some.injEq] at hcode
        rw [← hcode]
        decide
      · have hbracket : ¬ isKeyCode 93 = true := by decide
        have houtside : alphabet.isWord 93 = false := by
          rw [alphabet.word_ascii 93 (by decide)]
          decide
        rw [hmask, ← List.append_assoc, recognized_append hbracket houtside]
        exact not_recognized_nil
      · have hne : (wordsOf before).2 ++ key ≠ [] := by simp [hkey.ne_nil]
        have hfirst : ((wordsOf before).2 ++ (key ++ rest)).head?.any isBearerCode = true := by
          rw [← List.append_assoc, head?_of_ne_nil hne]
          obtain ⟨code, init, hcodes⟩ := List.exists_cons_of_ne_nil hne
          rw [hcodes] at hall ⊢
          exact hall code List.mem_cons_self
        rw [hawaiting.go hfirst, ← List.append_assoc (wordsOf before).2,
          List.dropWhile_append_of_pos hall]
        simp

end Keys

end MuxivoConsole
