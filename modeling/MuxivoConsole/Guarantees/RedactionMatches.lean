/-
Where the three patterns of the redaction match: each of them reads a text in one way only.
-/
import MuxivoConsole.Domain.Redaction

namespace MuxivoConsole

open Text Regex

section Classes

variable {code : Nat}

theorem isSpaceCode_iff : isSpaceCode code = true ↔
    (9 ≤ code ∧ code ≤ 13) ∨ (28 ≤ code ∧ code ≤ 32) ∨ code = 133 ∨ code = 160 ∨ code = 5760 ∨
      (8192 ≤ code ∧ code ≤ 8202) ∨ code = 8232 ∨ code = 8233 ∨ code = 8239 ∨ code = 8287 ∨
        code = 12288 := by
  simp only [isSpaceCode, Bool.or_eq_true, Bool.and_eq_true, decide_eq_true_eq, beq_iff_eq,
    or_assoc]

theorem isAlphanumericCode_iff : isAlphanumericCode code = true ↔
    (65 ≤ code ∧ code ≤ 90) ∨ (97 ≤ code ∧ code ≤ 122) ∨ (48 ≤ code ∧ code ≤ 57) ∨
      code = 304 ∨ code = 305 ∨ code = 383 ∨ code = 8490 := by
  unfold isAlphanumericCode foldCase
  simp only [Bool.or_eq_true, Bool.and_eq_true, decide_eq_true_eq]
  split_ifs <;> omega

theorem isBearerCode_iff : isBearerCode code = true ↔
    isAlphanumericCode code = true ∨ code = 46 ∨ code = 95 ∨ code = 126 ∨ code = 43 ∨ code = 47 ∨
      code = 61 ∨ code = 45 := by
  simp [isBearerCode]

theorem isKeyCode_iff : isKeyCode code = true ↔
    isAlphanumericCode code = true ∨ code = 95 ∨ code = 46 ∨ code = 45 := by
  simp [isKeyCode]

theorem isSeparatorCode_iff : isSeparatorCode code = true ↔ code = 58 ∨ code = 61 := by
  simp [isSeparatorCode]

theorem isQuoteCode_iff : isQuoteCode code = true ↔ code = 34 ∨ code = 39 := by
  simp [isQuoteCode]

theorem isHeaderCode_iff : isHeaderCode code = true ↔
    code ≠ 44 ∧ code ≠ 59 ∧ isSpaceCode code = false := by
  simp [isHeaderCode, and_assoc]

theorem isValueCode_iff : isValueCode code = true ↔
    isQuoteCode code = false ∧ isSpaceCode code = false ∧ code ≠ 44 ∧ code ≠ 59 ∧ code ≠ 38 ∧
      code ≠ 125 := by
  simp [isValueCode, and_assoc]

theorem not_isBearerCode_of_isSpaceCode (hspace : isSpaceCode code = true) :
    ¬ isBearerCode code = true := by
  rw [isBearerCode_iff, isAlphanumericCode_iff]
  rw [isSpaceCode_iff] at hspace
  omega

theorem not_isKeyCode_of_isSpaceCode (hspace : isSpaceCode code = true) :
    ¬ isKeyCode code = true := by
  rw [isKeyCode_iff, isAlphanumericCode_iff]
  rw [isSpaceCode_iff] at hspace
  omega

theorem not_isKeyCode_of_isSeparatorCode (hseparator : isSeparatorCode code = true) :
    ¬ isKeyCode code = true := by
  rw [isKeyCode_iff, isAlphanumericCode_iff]
  rw [isSeparatorCode_iff] at hseparator
  omega

theorem not_isSeparatorCode_of_isSpaceCode (hspace : isSpaceCode code = true) :
    ¬ isSeparatorCode code = true := by
  rw [isSeparatorCode_iff]
  rw [isSpaceCode_iff] at hspace
  omega

end Classes

section Words

variable {text : String} {codes word left : Str} {previous : Option Nat}
  {groups : List (Pattern Nat)}

theorem accepted_caseless (word codes : Str) :
    accepted (word.map fun code other => foldCase other == code) codes =
      decide (word <+: codes.map foldCase) := by
  induction word generalizing codes with
  | nil => simp [accepted]
  | cons code word ih =>
      cases codes with
      | nil => simp [accepted]
      | cons other codes =>
          rw [List.map_cons, accepted, ih, List.map_cons, Bool.eq_iff_iff]
          simp [List.cons_prefix_cons, @eq_comm _ code]

/-- A word is taken where the text begins with it. -/
theorem match?_caseless : match? (caseless text :: groups) previous codes =
    if codesOf text <+: codes.map foldCase then
      (match? groups (lastOr previous (codes.take (codesOf text).length))
        (codes.drop (codesOf text).length)).map
          (withGroup (codes.take (codesOf text).length))
    else none := by
  rw [caseless, match?_word, accepted_caseless, List.length_map]
  simp only [decide_eq_true_eq]

theorem prefix_map_foldCase_iff {target : Str} : target <+: codes.map foldCase ↔
    (codes.take target.length).map foldCase = target := by
  rw [List.prefix_iff_eq_take, ← List.map_take]
  exact ⟨Eq.symm, Eq.symm⟩

theorem begins_of_map_foldCase {target : Str} (hword : word.map foldCase = target) :
    target <+: (word ++ left).map foldCase := by
  rw [List.map_append, hword]
  exact List.prefix_append _ _

end Words

section Bearer

variable {isWord : Nat → Bool} {previous : Option Nat} {codes left word blanks value : Str}
  {texts : List Str}

/-- A bearer credential at a place. -/
structure BearerMatch (isWord : Nat → Bool) (previous : Option Nat)
    (codes word blanks value left : Str) : Prop where
  boundary : (previous.any isWord != codes.head?.any isWord) = true
  letters : word.map foldCase = codesOf "bearer"
  text : word ++ (blanks ++ (value ++ left)) = codes
  spaces : Maximal isSpaceCode (blanks ++ (value ++ left)) blanks (value ++ left)
  token : Maximal isBearerCode (value ++ left) value left
  blanks_ne : blanks ≠ []
  value_ne : value ≠ []

theorem match?_bearerPattern : match? (bearerPattern isWord) previous codes =
    if (previous.any isWord != codes.head?.any isWord) = true ∧
      codesOf "bearer" <+: codes.map foldCase ∧
      (codes.drop 6).takeWhile isSpaceCode ≠ [] ∧
      ((codes.drop 6).dropWhile isSpaceCode).takeWhile isBearerCode ≠ [] then
      some ([[], codes.take 6, (codes.drop 6).takeWhile isSpaceCode,
        ((codes.drop 6).dropWhile isSpaceCode).takeWhile isBearerCode],
        ((codes.drop 6).dropWhile isSpaceCode).dropWhile isBearerCode)
    else none := by
  have hlength : (codesOf "bearer").length = 6 := by decide
  have hstop (before : Option Nat) (code : Nat) (rest : Str) (hspace : isSpaceCode code = true) :
      match? [Pattern.some' isBearerCode] before (code :: rest) = none := by
    rw [match?_some'_last, List.takeWhile_cons_of_neg (not_isBearerCode_of_isSpaceCode hspace),
      if_pos rfl]
  rw [bearerPattern, match?_boundary, match?_caseless, match?_some'_cons hstop,
    match?_some'_last, hlength]
  by_cases hboundary : (previous.any isWord != codes.head?.any isWord) = true
  · by_cases hword : codesOf "bearer" <+: codes.map foldCase
    · by_cases hblanks : (codes.drop 6).takeWhile isSpaceCode = []
      · simp [hblanks]
      · by_cases hvalue : ((codes.drop 6).dropWhile isSpaceCode).takeWhile isBearerCode = []
        · simp [hvalue]
        · simp only [hboundary, hword, hblanks, hvalue, if_true, if_false, not_false_eq_true,
            and_self, Option.map_some, withGroup, ne_eq]
    · simp [hword]
  · simp [hboundary]

/-- The pattern matches in one way. -/
theorem match?_bearerPattern_eq_some :
    match? (bearerPattern isWord) previous codes = some (texts, left) ↔
      ∃ word blanks value, texts = [[], word, blanks, value] ∧
        BearerMatch isWord previous codes word blanks value left := by
  rw [match?_bearerPattern]
  constructor
  · intro hmatch
    split_ifs at hmatch with hall
    obtain ⟨hboundary, hword, hblanks, hvalue⟩ := hall
    rw [Option.some.injEq, Prod.mk.injEq] at hmatch
    obtain ⟨rfl, rfl⟩ := hmatch
    have hspaces := @maximal_takeWhile _ isSpaceCode (codes.drop 6)
    have htoken := @maximal_takeWhile _ isBearerCode ((codes.drop 6).dropWhile isSpaceCode)
    refine ⟨_, _, _, rfl, hboundary, prefix_map_foldCase_iff.mp hword, ?_, ?_, ?_, hblanks, hvalue⟩
    · rw [htoken.text, hspaces.text, List.take_append_drop]
    · rwa [htoken.text, hspaces.text]
    · rwa [htoken.text]
  · rintro ⟨word, blanks, value, rfl, hboundary, hletters, htext, hspaces, htoken, hblanks, hvalue⟩
    have hlength : word.length = 6 := by
      have hsame := congrArg List.length hletters
      rwa [List.length_map] at hsame
    have hdrop : codes.drop 6 = blanks ++ (value ++ left) := by
      rw [← htext, ← hlength, List.drop_left]
    have htake : codes.take 6 = word := by
      rw [← htext, ← hlength, List.take_left]
    obtain ⟨hrun, hrest⟩ := maximal_iff.mp hspaces
    obtain ⟨hrun', hrest'⟩ := maximal_iff.mp htoken
    rw [hdrop, htake, ← hrun, ← hrest, ← hrun', ← hrest', if_pos]
    refine ⟨hboundary, ?_, hblanks, hvalue⟩
    rw [← htext]
    exact begins_of_map_foldCase hletters

end Bearer

section Separators

variable {previous : Option Nat} {codes left before after rest : Str} {mark : Nat}
  {groups : List (Pattern Nat)} {texts : List Str}

/-- A colon or an equals sign with spaces around it, in front of what is no space. -/
structure Separated (codes before : Str) (mark : Nat) (after rest : Str) : Prop where
  text : before ++ mark :: (after ++ rest) = codes
  before : ∀ code ∈ before, isSpaceCode code
  mark : isSeparatorCode mark
  after : Maximal isSpaceCode (after ++ rest) after rest

theorem Separated.maximal (hseparated : Separated codes before mark after rest) :
    Maximal isSpaceCode codes before (mark :: (after ++ rest)) where
  text := hseparated.text
  accepted := hseparated.before
  stop := by
    rintro code hcode hspace
    cases hcode
    exact not_isSeparatorCode_of_isSpaceCode hspace hseparated.mark

theorem match?_separator
    (hstop : ∀ earlier code others, isSpaceCode code →
      match? groups earlier (code :: others) = none) :
    match? (separator :: groups) previous codes = some (texts, left) ↔
      ∃ before mark after rest others, Separated codes before mark after rest ∧
        texts = (before ++ mark :: after) :: others ∧
        match? groups (lastOr previous (before ++ mark :: after)) rest = some (others, left) := by
  have hmark (earlier : Option Nat) (code : Nat) (others : Str) (hspace : isSpaceCode code = true) :
      match? (.seq (.one isSeparatorCode) (.many isSpaceCode) :: groups) earlier
        (code :: others) = none := by
    rw [match?_seq, match?_one, if_neg (not_isSeparatorCode_of_isSpaceCode hspace)]
    rfl
  have hspaces := @maximal_takeWhile _ isSpaceCode codes
  rw [separator, match?_seq, match?_many hmark, match?_seq]
  cases hdrop : codes.dropWhile isSpaceCode with
  | nil =>
      rw [match?_one_nil]
      simp only [Option.map_none, reduceCtorEq, false_iff, not_exists, not_and]
      intro before mark after rest others hseparated
      have hrest := (maximal_iff.mp hseparated.maximal).2
      rw [hdrop] at hrest
      cases hrest
  | cons mark others =>
      have hprevious : lastOr (some mark) (others.takeWhile isSpaceCode) = lastOr previous
          (codes.takeWhile isSpaceCode ++ mark :: others.takeWhile isSpaceCode) := by
        rw [lastOr_append, lastOr_cons]
      rw [match?_one, match?_many hstop, hprevious]
      rw [hdrop] at hspaces
      constructor
      · intro hmatch
        split_ifs at hmatch with hsep
        · cases hlast : match? groups (lastOr previous (codes.takeWhile isSpaceCode ++
              mark :: others.takeWhile isSpaceCode)) (others.dropWhile isSpaceCode) with
          | none =>
              rw [hlast] at hmatch
              simp at hmatch
          | some result =>
              rw [hlast] at hmatch
              simp only [Option.map_some, Option.some.injEq, withGroup, joinGroups,
                Prod.mk.injEq, List.singleton_append] at hmatch
              obtain ⟨rfl, rfl⟩ := hmatch
              have hafter := @maximal_takeWhile _ isSpaceCode others
              refine ⟨_, mark, _, _, _, ⟨?_, hspaces.accepted, hsep, ?_⟩, rfl, hlast⟩
              · rw [hafter.text, hspaces.text]
              · rwa [hafter.text]
        · simp at hmatch
      · rintro ⟨before, mark', after, rest, others', hseparated, rfl, hgroups⟩
        obtain ⟨hbefore, hmarked⟩ := maximal_iff.mp hseparated.maximal
        rw [hdrop] at hmarked
        obtain ⟨rfl, rfl⟩ := List.cons.inj hmarked
        obtain ⟨hafter, hrest⟩ := maximal_iff.mp hseparated.after
        rw [if_pos hseparated.mark, ← hbefore, ← hafter, ← hrest, hgroups]
        rfl

end Separators

section Authorization

variable {previous : Option Nat} {codes word before after value left : Str} {mark : Nat}
  {texts : List Str}

/-- An authorization header at a place. -/
structure AuthorizationMatch (codes word before : Str) (mark : Nat) (after value left : Str) :
    Prop where
  letters : word.map foldCase = codesOf "authorization"
  text : ∃ rest, word ++ rest = codes ∧ Separated rest before mark after (value ++ left)
  maximal : Maximal isHeaderCode (value ++ left) value left
  value_ne : value ≠ []

theorem match?_authorizationHeaderPattern :
    match? authorizationHeaderPattern previous codes = some (texts, left) ↔
      ∃ word before mark after value, texts = [word ++ (before ++ mark :: after), value] ∧
        AuthorizationMatch codes word before mark after value left := by
  have hlength : (codesOf "authorization").length = 13 := by decide
  have hstop (earlier : Option Nat) (code : Nat) (rest : Str) (hspace : isSpaceCode code = true) :
      match? [Pattern.some' isHeaderCode] earlier (code :: rest) = none := by
    have hheader : ¬ isHeaderCode code = true := by
      rw [isHeaderCode_iff]
      simp [hspace]
    rw [match?_some'_last, List.takeWhile_cons_of_neg hheader, if_pos rfl]
  rw [authorizationHeaderPattern, match?_seq, match?_caseless, hlength]
  constructor
  · intro hmatch
    split_ifs at hmatch with hword
    · cases hrest : match? [separator, Pattern.some' isHeaderCode]
          (lastOr previous (codes.take 13)) (codes.drop 13) with
      | none =>
          rw [hrest] at hmatch
          simp at hmatch
      | some result =>
          obtain ⟨groups, left'⟩ := result
          obtain ⟨before, mark, after, rest, others, hseparated, rfl, hvalue⟩ :=
            (match?_separator hstop).mp hrest
          rw [match?_some'_last] at hvalue
          split_ifs at hvalue with hnone
          obtain ⟨rfl, rfl⟩ := Prod.mk.inj (Option.some.inj hvalue)
          rw [hrest] at hmatch
          simp only [Option.map_some, Option.some.injEq, withGroup, joinGroups,
            Prod.mk.injEq] at hmatch
          obtain ⟨rfl, rfl⟩ := hmatch
          have hmaximal := @maximal_takeWhile _ isHeaderCode rest
          refine ⟨_, before, mark, after, _, rfl, prefix_map_foldCase_iff.mp hword,
            ⟨_, List.take_append_drop 13 codes, ?_⟩, ?_, hnone⟩
          · rwa [hmaximal.text]
          · rwa [hmaximal.text]
    · simp at hmatch
  · rintro ⟨word, before, mark, after, value, rfl, hletters, ⟨rest, htext, hseparated⟩, hvalue,
      hne⟩
    have hword : word.length = 13 := by
      have hsame := congrArg List.length hletters
      rwa [List.length_map] at hsame
    have hdrop : codes.drop 13 = rest := by rw [← htext, ← hword, List.drop_left]
    have htake : codes.take 13 = word := by rw [← htext, ← hword, List.take_left]
    have hlast : match? [Pattern.some' isHeaderCode]
        (lastOr (lastOr previous word) (before ++ mark :: after)) (value ++ left) =
          some ([value], left) := by
      obtain ⟨hrun, hleft⟩ := maximal_iff.mp hvalue
      rw [match?_some'_last, ← hrun, ← hleft, if_neg hne]
    rw [hdrop, htake, (match?_separator hstop).mpr
      ⟨before, mark, after, value ++ left, [value], hseparated, rfl, hlast⟩, if_pos]
    · rfl
    · rw [← htext]
      exact begins_of_map_foldCase hletters

end Authorization

section KeyValues

variable {isWord : Nat → Bool} {previous : Option Nat}
  {codes key before after quote value closing left taken : Str} {mark : Nat} {texts : List Str}
  {groups : List (Pattern Nat)}

/-- The text has one of the words that mark a secret. -/
def HasMarker (key : Str) : Prop :=
  ∃ marker ∈ ["password", "secret", "token"], codesOf marker <:+: key.map foldCase

instance : DecidablePred HasMarker := fun _ =>
  inferInstanceAs (Decidable (∃ marker ∈ _, _))

/-- The quote at the beginning of a text. -/
def leadingQuote (codes : Str) : Str :=
  if codes.head?.any isQuoteCode then codes.take 1 else []

/-- A key with its separator and its value at a place. -/
structure KeyMatch (isWord : Nat → Bool) (previous : Option Nat) (codes key before : Str)
    (mark : Nat) (after quote value closing left : Str) : Prop where
  boundary : (previous.any isWord != codes.head?.any isWord) = true
  marker : HasMarker key
  text : ∃ rest, Maximal isKeyCode codes key rest ∧
    Separated rest before mark after (quote ++ (value ++ (closing ++ left)))
  opening : leadingQuote (quote ++ (value ++ (closing ++ left))) = quote
  maximal : Maximal isValueCode (value ++ (closing ++ left)) value (closing ++ left)
  value_ne : value ≠ []
  closing : leadingQuote (closing ++ left) = closing

theorem run_caseless (text : String) : (caseless text).run previous codes =
    if codesOf text <+: codes.map foldCase then
      [(codes.take (codesOf text).length, codes.drop (codesOf text).length)]
    else [] := by
  have hways : (caseless text).ways previous codes (fun result => [result]) =
      (caseless text).run previous codes := List.flatMap_singleton' _
  rw [← hways, caseless, Pattern.ways_word, accepted_caseless, List.length_map]
  simp only [decide_eq_true_eq]

/-- What a marker matches. -/
theorem mem_run_keyMarker : (taken, left) ∈ keyMarker.run previous codes ↔
    taken ++ left = codes ∧
      ∃ marker ∈ ["password", "secret", "token"], taken.map foldCase = codesOf marker := by
  have hone (text : String) : (taken, left) ∈ (caseless text).run previous codes ↔
      taken ++ left = codes ∧ taken.map foldCase = codesOf text := by
    rw [run_caseless]
    constructor
    · intro hmem
      split_ifs at hmem with hword
      · obtain ⟨rfl, rfl⟩ := Prod.mk.inj (List.mem_singleton.mp hmem)
        exact ⟨List.take_append_drop _ _, prefix_map_foldCase_iff.mp hword⟩
      · simp at hmem
    · rintro ⟨rfl, hword⟩
      have hlength : taken.length = (codesOf text).length := by
        have hsame := congrArg List.length hword
        rwa [List.length_map] at hsame
      rw [if_pos (begins_of_map_foldCase hword), ← hlength, List.take_left, List.drop_left]
      exact List.mem_singleton.mpr rfl
  rw [keyMarker, Pattern.run, Pattern.run, List.mem_append, List.mem_append, hone, hone, hone]
  simp only [List.mem_cons, List.not_mem_nil, or_false, exists_eq_or_imp, exists_eq_left]
  tauto

theorem isKeyCode_of_foldCase {code : Nat} (hfold : 97 ≤ foldCase code ∧ foldCase code ≤ 122) :
    isKeyCode code = true := by
  simp [isKeyCode, isAlphanumericCode, hfold]

/-- A text of key characters with a marker is what the first group can take. -/
theorem mem_run_key :
    (taken, left) ∈ (Pattern.seq (.many isKeyCode) (.seq keyMarker (.many isKeyCode))).run
        previous codes ↔
      taken ++ left = codes ∧ (∀ code ∈ taken, isKeyCode code) ∧ HasMarker taken := by
  have hletters : ∀ marker ∈ ["password", "secret", "token"], ∀ code ∈ codesOf marker,
      97 ≤ code ∧ code ≤ 122 := by decide
  simp only [Pattern.run, List.mem_flatMap, List.mem_map, Prod.exists, Prod.mk.injEq]
  constructor
  · rintro ⟨first, _, hfirst, _, rest, ⟨middle, _, hmiddle, last, _, hlast, rfl, rfl⟩, rfl, rfl⟩
    obtain ⟨rfl, hkeys⟩ := mem_splits.mp hfirst
    obtain ⟨rfl, marker, hmarker, hfold⟩ := mem_run_keyMarker.mp hmiddle
    obtain ⟨rfl, hkeys'⟩ := mem_splits.mp hlast
    refine ⟨by simp, ?_, marker, hmarker, first.map foldCase, last.map foldCase, by simp [hfold]⟩
    intro code hcode
    simp only [List.mem_append] at hcode
    rcases hcode with hcode | hcode | hcode
    · exact hkeys code hcode
    · refine isKeyCode_of_foldCase (hletters marker hmarker _ ?_)
      rw [← hfold]
      exact List.mem_map_of_mem hcode
    · exact hkeys' code hcode
  · rintro ⟨rfl, hkeys, marker, hmarker, before, after, hinside⟩
    obtain ⟨front, last, rfl, hfront, hlast⟩ := List.map_eq_append_iff.mp hinside.symm
    obtain ⟨first, middle, rfl, hfirst, hmiddle⟩ := List.map_eq_append_iff.mp hfront
    refine ⟨first, middle ++ (last ++ left), mem_splits.mpr ⟨by simp, ?_⟩, middle ++ last, left,
      ⟨middle, last ++ left, mem_run_keyMarker.mpr ⟨rfl, marker, hmarker, hmiddle⟩, last, left,
        mem_splits.mpr ⟨rfl, ?_⟩, rfl, rfl⟩, by simp, rfl⟩
    · exact fun code hcode => hkeys code (by simp [hcode])
    · exact fun code hcode => hkeys code (by simp [hcode])

/-- A key is taken as a whole where nothing goes on inside of it. -/
theorem match?_key
    (hstop : ∀ earlier code rest, isKeyCode code → match? groups earlier (code :: rest) = none) :
    match? (.seq (.many isKeyCode) (.seq keyMarker (.many isKeyCode)) :: groups) previous codes =
      if HasMarker (codes.takeWhile isKeyCode) then
        (match? groups (lastOr previous (codes.takeWhile isKeyCode))
          (codes.dropWhile isKeyCode)).map (withGroup (codes.takeWhile isKeyCode))
      else none := by
  have hunique : ∀ result ∈ (Pattern.seq (.many isKeyCode)
      (.seq keyMarker (.many isKeyCode))).run previous codes,
      (runGroups groups (lastOr previous result.1) result.2).map (withGroup result.1) ≠ [] →
        result = (codes.takeWhile isKeyCode, codes.dropWhile isKeyCode) := by
    rintro ⟨taken, left⟩ hmem hgo
    obtain ⟨htext, hkeys, -⟩ := mem_run_key.mp hmem
    have hmaximal : Maximal isKeyCode codes taken left := by
      refine ⟨htext, hkeys, ?_⟩
      intro code hcode hkey
      cases left with
      | nil => cases hcode
      | cons head rest =>
          cases hcode
          refine hgo ?_
          rw [match?_eq_none.mp (hstop _ code rest hkey), List.map_nil]
    obtain ⟨rfl, rfl⟩ := maximal_iff.mp hmaximal
    rfl
  rw [match?, runGroups]
  split_ifs with hmarker
  · have hmem : (codes.takeWhile isKeyCode, codes.dropWhile isKeyCode) ∈
        (Pattern.seq (.many isKeyCode) (.seq keyMarker (.many isKeyCode))).run previous codes :=
      mem_run_key.mpr ⟨List.takeWhile_append_dropWhile, fun _ => List.mem_takeWhile_imp, hmarker⟩
    have hhead := head?_flatMap_of_unique hmem hunique
    rw [List.head?_map] at hhead
    exact hhead
  · rw [List.head?_eq_none_iff, List.flatMap_eq_nil_iff]
    intro result hresult
    by_contra hgo
    have hsame := hunique result hresult hgo
    obtain ⟨-, -, hkey⟩ := mem_run_key.mp hresult
    rw [hsame] at hkey
    exact hmarker hkey

theorem leadingQuote_append_drop (codes : Str) :
    leadingQuote codes ++ codes.drop (leadingQuote codes).length = codes := by
  unfold leadingQuote
  split_ifs with hquote
  · cases codes with
    | nil => rfl
    | cons code rest => rfl
  · rfl

/-- A leading quote is taken, and then what follows is matched. -/
theorem match?_quote (hstop : ∀ earlier code rest, isQuoteCode code →
    match? groups earlier (code :: rest) = none) :
    match? (.optional isQuoteCode :: groups) previous codes =
      (match? groups (lastOr previous (leadingQuote codes))
        (codes.drop (leadingQuote codes).length)).map (withGroup (leadingQuote codes)) := by
  rw [match?_optional hstop, leadingQuote]
  split_ifs with hquote
  · cases codes with
    | nil => simp at hquote
    | cons code rest => rfl
  · rfl

theorem match?_quote_last : match? [.optional isQuoteCode] previous codes =
    some ([leadingQuote codes], codes.drop (leadingQuote codes).length) := by
  rw [match?_optional_last, leadingQuote]
  split_ifs with hquote
  · cases codes with
    | nil => simp at hquote
    | cons code rest => rfl
  · rfl

/-- The value of a key and the quote after it. -/
theorem match?_value : match? [.some' isValueCode, .optional isQuoteCode] previous codes =
      some (texts, left) ↔
    ∃ value closing, texts = [value, closing] ∧ value ++ (closing ++ left) = codes ∧
      Maximal isValueCode (value ++ (closing ++ left)) value (closing ++ left) ∧ value ≠ [] ∧
        leadingQuote (closing ++ left) = closing := by
  have hgo : match? [Pattern.optional isQuoteCode]
      (lastOr previous (codes.takeWhile isValueCode)) (codes.dropWhile isValueCode) ≠ none := by
    rw [match?_quote_last]
    exact Option.some_ne_none _
  rw [match?_some'_greedy hgo, match?_quote_last]
  have hmaximal := @maximal_takeWhile _ isValueCode codes
  have hclosing := leadingQuote_append_drop (codes.dropWhile isValueCode)
  constructor
  · intro hmatch
    split_ifs at hmatch with hnone
    simp only [Option.map_some, withGroup, Option.some.injEq, Prod.mk.injEq] at hmatch
    obtain ⟨rfl, rfl⟩ := hmatch
    refine ⟨_, _, rfl, ?_, ?_, hnone, ?_⟩
    · rw [hclosing, hmaximal.text]
    · rwa [hclosing, hmaximal.text]
    · rw [hclosing]
  · rintro ⟨value, closing, rfl, rfl, hvalue, hne, hquote⟩
    obtain ⟨hrun, hrest⟩ := maximal_iff.mp hvalue
    rw [← hrun, ← hrest, if_neg hne, hquote, List.drop_left]
    rfl

theorem match?_keyValueSecretPattern :
    match? (keyValueSecretPattern isWord) previous codes = some (texts, left) ↔
      ∃ key before mark after quote value closing,
        texts = [[], key, before ++ mark :: after, quote, value, closing] ∧
          KeyMatch isWord previous codes key before mark after quote value closing left := by
  have hvalue {code : Nat} (hcode : ¬ isValueCode code = true) (earlier : Option Nat) (rest : Str) :
      match? [Pattern.some' isValueCode, Pattern.optional isQuoteCode] earlier (code :: rest) =
        none := by
    rw [Option.eq_none_iff_forall_not_mem]
    rintro ⟨texts, left⟩ hmatch
    obtain ⟨value, closing, -, htext, hmaximal, hne, -⟩ := match?_value.mp hmatch
    cases value with
    | nil => exact hne rfl
    | cons head tail =>
        obtain ⟨rfl, -⟩ := List.cons.inj htext
        exact hcode (hmaximal.accepted _ List.mem_cons_self)
  have hquote (earlier : Option Nat) (code : Nat) (rest : Str) (hcode : isQuoteCode code = true) :
      match? [Pattern.some' isValueCode, Pattern.optional isQuoteCode] earlier (code :: rest) =
        none := hvalue (by rw [isValueCode_iff]; simp [hcode]) earlier rest
  have hspace (earlier : Option Nat) (code : Nat) (rest : Str) (hcode : isSpaceCode code = true) :
      match? [.optional isQuoteCode, Pattern.some' isValueCode, Pattern.optional isQuoteCode]
        earlier (code :: rest) = none := by
    have hnone : leadingQuote (code :: rest) = [] := by
      have hplain : isQuoteCode code = false := by
        rw [Bool.eq_false_iff, ne_eq, isQuoteCode_iff]
        rw [isSpaceCode_iff] at hcode
        omega
      simp [leadingQuote, hplain]
    rw [match?_quote hquote, hnone]
    change (match? [Pattern.some' isValueCode, Pattern.optional isQuoteCode] earlier
      (code :: rest)).map _ = none
    rw [hvalue (by rw [isValueCode_iff]; simp [hcode])]
    rfl
  have hkey (earlier : Option Nat) (code : Nat) (rest : Str) (hcode : isKeyCode code = true) :
      match? [separator, .optional isQuoteCode, Pattern.some' isValueCode,
        Pattern.optional isQuoteCode] earlier (code :: rest) = none := by
    rw [Option.eq_none_iff_forall_not_mem]
    rintro ⟨texts, left⟩ hmatch
    obtain ⟨before, mark, after, others, -, hseparated, -, -⟩ := (match?_separator hspace).mp hmatch
    have htext := hseparated.text
    cases before with
    | nil =>
        obtain ⟨rfl, -⟩ := List.cons.inj htext
        exact not_isKeyCode_of_isSeparatorCode hseparated.mark hcode
    | cons head tail =>
        obtain ⟨rfl, -⟩ := List.cons.inj htext
        exact not_isKeyCode_of_isSpaceCode (hseparated.before _ List.mem_cons_self) hcode
  rw [keyValueSecretPattern, match?_boundary, match?_key hkey]
  have hmaximal := @maximal_takeWhile _ isKeyCode codes
  constructor
  · intro hmatch
    split_ifs at hmatch with hboundary hmarker
    · cases hrest : match? [separator, .optional isQuoteCode, Pattern.some' isValueCode,
          Pattern.optional isQuoteCode] (lastOr previous (codes.takeWhile isKeyCode))
            (codes.dropWhile isKeyCode) with
      | none =>
          rw [hrest] at hmatch
          simp at hmatch
      | some result =>
          obtain ⟨groups, left'⟩ := result
          rw [hrest] at hmatch
          simp only [Option.map_some, withGroup, Option.some.injEq, Prod.mk.injEq] at hmatch
          obtain ⟨rfl, rfl⟩ := hmatch
          obtain ⟨before, mark, after, quoted, others, hseparated, rfl, hquoted⟩ :=
            (match?_separator hspace).mp hrest
          rw [match?_quote hquote, Option.map_eq_some_iff] at hquoted
          obtain ⟨⟨groups, left''⟩, hlast, hsame⟩ := hquoted
          obtain ⟨rfl, rfl⟩ := Prod.mk.inj hsame
          obtain ⟨value, closing, rfl, htext, hvalued, hne, hclosing⟩ := match?_value.mp hlast
          have hopening : leadingQuote quoted ++ (value ++ (closing ++ left'')) = quoted := by
            rw [htext, leadingQuote_append_drop]
          refine ⟨_, before, mark, after, leadingQuote quoted, value, closing, rfl, hboundary,
            hmarker, ⟨_, hmaximal, ?_⟩, ?_, hvalued, hne, hclosing⟩
          · rwa [hopening]
          · rw [hopening]
    · simp at hmatch
  · rintro ⟨key, before, mark, after, quote, value, closing, rfl, hboundary, hmarker,
      ⟨rest, hkeys, hseparated⟩, hopening, hvalued, hne, hclosing⟩
    obtain ⟨hrun, hrest⟩ := maximal_iff.mp hkeys
    have hlast : match? [.optional isQuoteCode, Pattern.some' isValueCode,
        Pattern.optional isQuoteCode] (lastOr (lastOr previous key) (before ++ mark :: after))
          (quote ++ (value ++ (closing ++ left))) = some ([quote, value, closing], left) := by
      rw [match?_quote hquote, hopening, List.drop_left,
        match?_value.mpr ⟨value, closing, rfl, rfl, hvalued, hne, hclosing⟩]
      rfl
    rw [if_pos hboundary, ← hrun, ← hrest, if_pos hmarker, (match?_separator hspace).mpr
      ⟨before, mark, after, _, _, hseparated, rfl, hlast⟩]
    rfl

end KeyValues

end MuxivoConsole
