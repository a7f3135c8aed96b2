/-
What each pass of the redaction makes of a word and of a separator, with any text around them.
-/
import MuxivoConsole.Guarantees.RedactionIdempotence
import MuxivoConsole.Text.Splitting

namespace MuxivoConsole

open Text Regex

section Bearer

variable {isWord : Nat → Bool} {previous : Option Nat} {codes word front rest : Str}

/-- `_BEARER_PATTERN.sub` from a place on. -/
abbrev bearerFrom (isWord : Nat → Bool) (previous : Option Nat) (codes : Str) : Str :=
  substituteFrom (bearerPattern isWord) (fun _ => codesOf "Bearer " ++ redactedSecret) 0 previous
    codes

/-- A text without spaces. -/
def Solid (codes : Str) : Prop :=
  ∀ code ∈ codes, ¬ isSpaceCode code = true

/-- A word that may introduce a credential. -/
def IsBearer (isWord : Nat → Bool) (previous : Option Nat) (word : Str) : Prop :=
  word.map foldCase = codesOf "bearer" ∧ (previous.any isWord != word.head?.any isWord) = true

/-- Spaces come next, and then a credential. -/
def GoesOn (codes : Str) : Prop :=
  codes.head?.any isSpaceCode = true ∧ (codes.dropWhile isSpaceCode).head?.any isBearerCode = true

theorem IsBearer.ne_nil (hbearer : IsBearer isWord previous word) : word ≠ [] := by
  rintro rfl
  exact absurd hbearer.1 (by decide)

theorem IsBearer.length (hbearer : IsBearer isWord previous word) : word.length = 6 := by
  have hsame := congrArg List.length hbearer.1
  rwa [List.length_map] at hsame

theorem bearerFrom_eq_of_head (hhead : ∀ code ∈ codes.head?, foldCase code ≠ 98) :
    bearerFrom isWord previous codes = bearerFrom isWord none codes := by
  refine substituteFrom_congr ?_
  rw [match?_bearerPattern_eq_none hhead, match?_bearerPattern_eq_none hhead]

theorem BearerBegins.goesOn {first head : Nat} {others blanks : Str}
    (hbegins : BearerBegins isWord previous first others blanks head) :
    GoesOn (blanks ++ head :: rest) := by
  have hhead : ¬ isSpaceCode head = true := fun hspace =>
    not_isBearerCode_of_isSpaceCode hspace hbegins.token
  constructor
  · rw [head?_of_ne_nil hbegins.blanks_ne]
    cases blanks with
    | nil => exact absurd rfl hbegins.blanks_ne
    | cons blank blanks => exact hbegins.spaces blank List.mem_cons_self
  · rw [List.dropWhile_append_of_pos hbegins.spaces, List.dropWhile_cons_of_neg hhead]
    exact hbegins.token

/-- A credential that begins with a word has the word in front of the spaces. -/
theorem isBearer_of_match (hsolid : Solid word)
    (hrest : ∀ code ∈ rest.head?, ¬ isAlphanumericCode code = true)
    (hmatch : match? (bearerPattern isWord) previous (word ++ rest) ≠ none) :
    IsBearer isWord previous word ∧ GoesOn rest := by
  obtain ⟨first, others, blanks, head, left, htext, hbegins⟩ :=
    match?_bearerPattern_ne_none.mp hmatch
  rw [← List.cons_append] at htext
  rcases List.append_eq_append_iff.mp htext with ⟨middle, hword, hmiddle⟩ | ⟨middle, hword, hmiddle⟩
  · cases middle with
    | nil =>
        rw [List.append_nil] at hword
        rw [List.nil_append] at hmiddle
        rw [← hword, hmiddle]
        exact ⟨⟨hbegins.letters, hbegins.boundary⟩, hbegins.goesOn⟩
    | cons code middle =>
        -- the word would go on with a letter
        refine absurd ?_ (hrest code (by rw [hmiddle]; rfl))
        refine isAlphanumericCode_of_foldCase ?_
        have hmem : foldCase code ∈ (first :: others).map foldCase :=
          List.mem_map_of_mem (by rw [hword]; simp)
        rw [hbegins.letters] at hmem
        have hletters : ∀ letter ∈ codesOf "bearer", 97 ≤ letter ∧ letter ≤ 122 := by decide
        exact hletters _ hmem
  · cases middle with
    | nil =>
        rw [List.append_nil] at hword
        rw [List.nil_append] at hmiddle
        rw [hword, ← hmiddle]
        exact ⟨⟨hbegins.letters, hbegins.boundary⟩, hbegins.goesOn⟩
    | cons code middle =>
        -- the spaces would begin inside of the word
        have hblanks := hbegins.blanks_ne
        cases blanks with
        | nil => exact absurd rfl hblanks
        | cons blank blanks =>
            obtain ⟨rfl, -⟩ := List.cons.inj hmiddle
            exact absurd (hbegins.spaces blank List.mem_cons_self)
              (hsolid blank (by rw [hword]; simp))

/-- A word stays if no end of it introduces a credential. -/
theorem bearerFrom_solid (hsolid : Solid word)
    (hrest : ∀ code ∈ rest.head?, ¬ isAlphanumericCode code = true)
    (hends : ∀ taken left, taken ++ left = word → IsBearer isWord (lastOr previous taken) left →
      ¬ GoesOn rest) :
    bearerFrom isWord previous (word ++ rest) =
      word ++ bearerFrom isWord (lastOr previous word) rest := by
  refine substituteFrom_keep fun taken code left htext => ?_
  by_contra hmatch
  obtain ⟨hbearer, hgoes⟩ := isBearer_of_match
    (fun other hother => hsolid other (by rw [← htext]; exact List.mem_append_right _ hother))
    hrest hmatch
  exact hends taken _ htext hbearer hgoes

theorem bearerFrom_solid_of_not_goesOn (hsolid : Solid word)
    (hrest : ∀ code ∈ rest.head?, ¬ isAlphanumericCode code = true) (hgoes : ¬ GoesOn rest) :
    bearerFrom isWord previous (word ++ rest) =
      word ++ bearerFrom isWord (lastOr previous word) rest :=
  bearerFrom_solid hsolid hrest fun _ _ _ _ => hgoes

/-- Before another character than a letter, a digit or a space, a word stays. -/
theorem bearerFrom_solid_cons {code : Nat} (hsolid : Solid word)
    (hletter : ¬ isAlphanumericCode code = true) (hspace : ¬ isSpaceCode code = true) :
    bearerFrom isWord previous (word ++ code :: rest) =
      word ++ code :: bearerFrom isWord (some code) rest := by
  rw [bearerFrom_solid_of_not_goesOn hsolid]
  · have hnone : match? (bearerPattern isWord) (lastOr previous word) (code :: rest) = none := by
      refine match?_bearerPattern_eq_none ?_
      rintro other hother hfold
      cases hother
      exact hletter (isAlphanumericCode_of_foldCase (by omega))
    rw [bearerFrom, substituteFrom_none hnone]
  · rintro other hother
    cases hother
    exact hletter
  · rintro ⟨hhead, -⟩
    exact hspace hhead

theorem bearerFrom_solid_end (hsolid : Solid word) : bearerFrom isWord previous word = word := by
  have hword := @bearerFrom_solid_of_not_goesOn isWord previous word [] hsolid (by simp)
    (by rintro ⟨hhead, -⟩; simp at hhead)
  simpa [bearerFrom, substituteFrom] using hword

/-- A space stays. -/
theorem bearerFrom_space {code : Nat} (hspace : isSpaceCode code = true) :
    bearerFrom isWord previous (code :: rest) = code :: bearerFrom isWord (some code) rest := by
  refine substituteFrom_none (match?_bearerPattern_eq_none ?_)
  rintro other hother
  cases hother
  exact (foldCase_of_isSpaceCode hspace).2

/-- A word whose end introduces a credential. -/
theorem bearerFrom_bearer (hsolid : Solid (front ++ word))
    (hbearer : IsBearer isWord (lastOr previous front) word) (hgoes : GoesOn rest) :
    bearerFrom isWord previous (front ++ (word ++ rest)) =
      front ++ (codesOf "Bearer " ++ redactedSecret ++
        bearerFrom isWord none ((rest.dropWhile isSpaceCode).dropWhile isBearerCode)) := by
  have hsolid' : Solid word := fun code hcode => hsolid code (List.mem_append_right _ hcode)
  have hspace : ∀ code ∈ rest.head?, isSpaceCode code = true := by
    intro code hcode
    have hhead := hgoes.1
    rw [Option.mem_def.mp hcode] at hhead
    exact hhead
  have hrest : ∀ code ∈ rest.head?, ¬ isAlphanumericCode code = true := by
    intro code hcode hletter
    have hblank := hspace code hcode
    rw [isAlphanumericCode_iff] at hletter
    rw [isSpaceCode_iff] at hblank
    omega
  rw [bearerFrom, substituteFrom_keep]
  · have hblanks := @maximal_takeWhile _ isSpaceCode rest
    have htoken := @maximal_takeWhile _ isBearerCode (rest.dropWhile isSpaceCode)
    have hvalue : (rest.dropWhile isSpaceCode).takeWhile isBearerCode ≠ [] := by
      have hhead := hgoes.2
      cases hdrop : rest.dropWhile isSpaceCode with
      | nil => simp [hdrop] at hhead
      | cons code left =>
          rw [hdrop] at hhead
          rw [List.takeWhile_cons_of_pos (by simpa using hhead)]
          exact List.cons_ne_nil _ _
    have hmatch : BearerMatch isWord (lastOr previous front) (word ++ rest) word
        (rest.takeWhile isSpaceCode) ((rest.dropWhile isSpaceCode).takeWhile isBearerCode)
          ((rest.dropWhile isSpaceCode).dropWhile isBearerCode) := by
      refine ⟨?_, hbearer.1, ?_, ?_, ?_, ?_, hvalue⟩
      · rw [head?_of_ne_nil hbearer.ne_nil]
        exact hbearer.2
      · rw [htoken.text, hblanks.text]
      · rwa [htoken.text, hblanks.text]
      · rwa [htoken.text]
      · have hhead := hgoes.1
        cases rest with
        | nil => simp at hhead
        | cons code left =>
            rw [List.takeWhile_cons_of_pos (by simpa using hhead)]
            exact List.cons_ne_nil _ _
    have hsome := match?_bearerPattern_eq_some.mpr ⟨_, _, _, rfl, hmatch⟩
    rw [substituteFrom_match hsome (flatten_bearerMatch_ne_nil _ _ _ _ hsome)]
    congr 2
    refine bearerFrom_eq_of_head fun code hcode hfold => htoken.stop code hcode ?_
    rw [isBearerCode_iff]
    exact Or.inl (isAlphanumericCode_of_foldCase (by omega))
  · -- a longer word is not the word that introduces a credential
    intro taken code left htext
    by_contra hmatch
    have hpart : Solid (code :: left ++ word) := by
      intro other hother
      refine hsolid other ?_
      rw [← htext, List.append_assoc]
      exact List.mem_append_right _ hother
    rw [← List.append_assoc] at hmatch
    obtain ⟨hother, -⟩ := isBearer_of_match hpart hrest hmatch
    have hlength := hother.length
    rw [List.length_append, List.length_cons, hbearer.length] at hlength
    omega

end Bearer

section Separators

variable {isWord : Nat → Bool} {previous : Option Nat} {codes front word rest : Str} {mark : Nat}

/-- A text without separators. -/
def Unseparated (codes : Str) : Prop :=
  ∀ code ∈ codes, ¬ isSeparatorCode code = true

/-- `_AUTHORIZATION_HEADER_PATTERN.sub` from a place on. -/
abbrev headersFrom (codes : Str) : Str :=
  substituteFrom authorizationHeaderPattern redactedHeader 0 none codes

/-- `_KEY_VALUE_SECRET_PATTERN.sub` from a place on. -/
abbrev keysFrom (isWord : Nat → Bool) (previous : Option Nat) (codes : Str) : Str :=
  substituteFrom (keyValueSecretPattern isWord) redactedKeyValue 0 previous codes

/-- The text ends with the name of the header. -/
def EndsHeader (codes : Str) : Prop :=
  ∃ front word, codes = front ++ word ∧ word.map foldCase = codesOf "authorization"

/-- The text ends with a key. -/
def EndsKey (isWord : Nat → Bool) (previous : Option Nat) (codes : Str) : Prop :=
  ∃ front key, codes = front ++ key ∧
    ((lastOr previous front).any isWord != key.head?.any isWord) = true ∧
      (∀ code ∈ key, isKeyCode code = true) ∧ HasMarker key

/-- The last character is no space. -/
def EndsSolid (codes : Str) : Prop :=
  ∀ code ∈ codes.getLast?, ¬ isSpaceCode code = true

theorem headersFrom_previous (codes : Str) :
    substituteFrom authorizationHeaderPattern redactedHeader 0 previous codes =
      headersFrom codes := by
  refine substituteFrom_congr ?_
  have hsame (texts : List Str) (left : Str) :
      match? authorizationHeaderPattern previous codes = some (texts, left) ↔
        match? authorizationHeaderPattern none codes = some (texts, left) := by
    rw [match?_authorizationHeaderPattern, match?_authorizationHeaderPattern]
  exact Option.ext fun result => hsame result.1 result.2

/-- The separator of a match is the first one of the text. -/
theorem separated_front {before after follows : Str} {mark' : Nat} (hfront : Unseparated front)
    (hsolid : EndsSolid front) (hmark : isSeparatorCode mark = true) (hword : Unseparated word)
    (hseparated : Separated codes before mark' after follows)
    (htext : word ++ codes = front ++ mark :: rest) :
    front = word ∧ before = [] ∧ mark' = mark ∧ after ++ follows = rest := by
  have hbefore : ∀ code ∈ word ++ before, ¬ isSeparatorCode code = true := by
    intro code hcode
    rcases List.mem_append.mp hcode with hcode | hcode
    · exact hword code hcode
    · exact not_isSeparatorCode_of_isSpaceCode (hseparated.before code hcode)
  rw [← hseparated.text, ← List.append_assoc] at htext
  obtain ⟨hsame, hmark', hrest⟩ := append_mark_inj hbefore hfront hseparated.mark hmark htext
  have hnone : before = [] := by
    rcases List.eq_nil_or_concat before with hnone | ⟨init, last, hlast⟩
    · exact hnone
    · refine absurd (hseparated.before last (by simp [hlast])) (hsolid last ?_)
      rw [← hsame, hlast]
      simp
  rw [hnone, List.append_nil] at hsame
  exact ⟨hsame.symm, hnone, hmark', hrest⟩

theorem unseparated_of_fold {target : String} (hword : word.map foldCase = codesOf target)
    (htarget : ∀ code ∈ codesOf target, code ≠ 58 ∧ code ≠ 61) : Unseparated word := by
  intro code hcode hmark
  have hfold := List.mem_map_of_mem (f := foldCase) hcode
  rw [hword] at hfold
  rw [isSeparatorCode_iff] at hmark
  rcases hmark with rfl | rfl
  · exact (htarget _ hfold).1 rfl
  · exact (htarget _ hfold).2 rfl

theorem unseparated_of_key {key : Str} (hkey : ∀ code ∈ key, isKeyCode code = true) :
    Unseparated key := fun code hcode hmark =>
  not_isKeyCode_of_isSeparatorCode hmark (hkey code hcode)

theorem Unseparated.right (hcodes : Unseparated (front ++ rest)) : Unseparated rest :=
  fun code hcode => hcodes code (List.mem_append_right _ hcode)

theorem EndsSolid.right (hcodes : EndsSolid (front ++ rest)) : EndsSolid rest := by
  intro code hcode
  refine hcodes code ?_
  rw [List.getLast?_append, Option.mem_def.mp hcode]
  rfl

/-- The name of a header in front of the first separator. -/
theorem header_of_match (hfront : Unseparated front) (hsolid : EndsSolid front)
    (hmark : isSeparatorCode mark = true)
    (hmatch : match? authorizationHeaderPattern previous (front ++ mark :: rest) ≠ none) :
    front.map foldCase = codesOf "authorization" := by
  obtain ⟨⟨texts, left⟩, hsome⟩ := Option.ne_none_iff_exists'.mp hmatch
  obtain ⟨word, before, mark', after, value, -, hheader⟩ :=
    match?_authorizationHeaderPattern.mp hsome
  obtain ⟨follows, htext, hseparated⟩ := hheader.text
  have hword : Unseparated word := unseparated_of_fold hheader.letters (by decide)
  obtain ⟨rfl, -, -, -⟩ := separated_front hfront hsolid hmark hword hseparated htext
  exact hheader.letters

/-- Behind other text than the name of the header, a separator stays. -/
theorem headersFrom_separator (hfront : Unseparated front) (hsolid : EndsSolid front)
    (hmark : isSeparatorCode mark = true) (hname : ¬ EndsHeader front) :
    headersFrom (front ++ mark :: rest) = front ++ mark :: headersFrom rest := by
  have hmarked : match? authorizationHeaderPattern (lastOr none front) (mark :: rest) = none := by
    rw [Option.eq_none_iff_forall_not_mem]
    rintro ⟨texts, left⟩ hsome
    obtain ⟨word, before, mark', after, value, -, hheader⟩ :=
      match?_authorizationHeaderPattern.mp hsome
    have hstart := hheader.begins
    have hcons : codesOf "authorization" = 97 :: codesOf "uthorization" := by decide
    rw [hcons, List.map_cons] at hstart
    have hfold := (List.cons_prefix_cons.mp hstart).1
    rw [isSeparatorCode_iff] at hmark
    rcases hmark with rfl | rfl <;> exact absurd hfold (by decide)
  rw [headersFrom, substituteFrom_keep, substituteFrom_none hmarked, headersFrom_previous]
  intro taken code left htext
  by_contra hmatch
  subst htext
  have hword := header_of_match hfront.right hsolid.right hmark hmatch
  exact hname ⟨taken, code :: left, rfl, hword⟩

/-- Behind the name of the header, the value is masked. -/
theorem headersFrom_header (hfront : Unseparated (front ++ word))
    (hmark : isSeparatorCode mark = true)
    (hword : word.map foldCase = codesOf "authorization")
    (hvalue : (rest.dropWhile isSpaceCode).takeWhile isHeaderCode ≠ []) :
    headersFrom (front ++ word ++ mark :: rest) =
      front ++ word ++ mark :: (rest.takeWhile isSpaceCode ++
        (redactedSecret ++ headersFrom ((rest.dropWhile isSpaceCode).dropWhile isHeaderCode))) := by
  have hlength : word.length = 13 := by
    have hsame := congrArg List.length hword
    rwa [List.length_map] at hsame
  have hne : word ≠ [] := by
    rintro rfl
    cases hlength
  have hsolid : EndsSolid word := by
    intro code hcode hspace
    have hfold := List.mem_map_of_mem (f := foldCase) (List.mem_of_mem_getLast? hcode)
    rw [hword] at hfold
    have hletters : ∀ letter ∈ codesOf "authorization", 97 ≤ letter ∧ letter ≤ 122 := by decide
    exact not_isKeyCode_of_isSpaceCode hspace (isKeyCode_of_foldCase (hletters _ hfold))
  have hblanks := @maximal_takeWhile _ isSpaceCode rest
  have hheader := @maximal_takeWhile _ isHeaderCode (rest.dropWhile isSpaceCode)
  have hmatch : match? authorizationHeaderPattern (lastOr none front) (word ++ mark :: rest) =
      some ([word ++ ([] ++ mark :: rest.takeWhile isSpaceCode),
        (rest.dropWhile isSpaceCode).takeWhile isHeaderCode],
          (rest.dropWhile isSpaceCode).dropWhile isHeaderCode) := by
    refine match?_authorizationHeaderPattern.mpr ⟨word, [], mark, _, _, rfl, hword,
      ⟨mark :: rest, rfl, ?_, by simp, hmark, ?_⟩, ?_, hvalue⟩
    · rw [hheader.text, hblanks.text]
      rfl
    · rwa [hheader.text, hblanks.text]
    · rwa [hheader.text]
  rw [headersFrom, List.append_assoc, substituteFrom_keep,
    substituteFrom_match hmatch (by simp [hne]), headersFrom_previous]
  · simp [redactedHeader]
  · -- no longer word is the name
    intro taken code left htext
    by_contra hother
    subst htext
    rw [← List.append_assoc] at hother
    rw [List.append_assoc] at hfront
    have hletters := header_of_match hfront.right ?_ hmark hother
    · have hsame := congrArg List.length hletters
      rw [List.length_map, List.length_append, List.length_cons, hlength] at hsame
      have hthirteen : (codesOf "authorization").length = 13 := by decide
      omega
    · intro last hlast
      rw [List.getLast?_append_of_ne_nil _ hne] at hlast
      exact hsolid last hlast

/-- Without separators nothing is masked. -/
theorem headersFrom_unseparated (hcodes : Unseparated codes) : headersFrom codes = codes := by
  have hkeep := @substituteFrom_keep _ authorizationHeaderPattern redactedHeader none codes []
    fun taken code left htext => by
      rw [Option.eq_none_iff_forall_not_mem]
      rintro ⟨texts, left'⟩ hsome
      obtain ⟨word, before, mark, after, value, -, hheader⟩ :=
        match?_authorizationHeaderPattern.mp hsome
      obtain ⟨follows, -, hseparated⟩ := hheader.text
      have hcodes' := hheader.codes_eq
      rw [List.append_nil] at hcodes'
      refine hcodes mark ?_ hseparated.mark
      rw [← htext, hcodes']
      simp
  rwa [List.append_nil, substituteFrom, List.append_nil] at hkeep

theorem keysFrom_unseparated (hcodes : Unseparated codes) :
    keysFrom isWord previous codes = codes := by
  have hkeep := @substituteFrom_keep _ (keyValueSecretPattern isWord) redactedKeyValue previous
    codes [] fun taken code left htext => by
      rw [Option.eq_none_iff_forall_not_mem]
      rintro ⟨texts, left'⟩ hsome
      obtain ⟨key, before, mark, after, quote, value, closing, -, hkey⟩ :=
        match?_keyValueSecretPattern.mp hsome
      obtain ⟨follows, -, hseparated⟩ := hkey.text
      have hcodes' := hkey.codes_eq
      rw [List.append_nil] at hcodes'
      refine hcodes mark ?_ hseparated.mark
      rw [← htext, hcodes']
      simp
  rwa [List.append_nil, substituteFrom, List.append_nil] at hkeep

/-- The key in front of the first separator. -/
theorem key_of_match (hfront : Unseparated front) (hsolid : EndsSolid front)
    (hmark : isSeparatorCode mark = true)
    (hmatch : match? (keyValueSecretPattern isWord) previous (front ++ mark :: rest) ≠ none) :
    (previous.any isWord != front.head?.any isWord) = true ∧
      (∀ code ∈ front, isKeyCode code = true) ∧ HasMarker front := by
  obtain ⟨⟨texts, left⟩, hsome⟩ := Option.ne_none_iff_exists'.mp hmatch
  obtain ⟨key, before, mark', after, quote, value, closing, -, hkey⟩ :=
    match?_keyValueSecretPattern.mp hsome
  obtain ⟨follows, hmaximal, hseparated⟩ := hkey.text
  have hword : Unseparated key := unseparated_of_key hmaximal.accepted
  obtain ⟨rfl, -, -, -⟩ := separated_front hfront hsolid hmark hword hseparated hmaximal.text
  have hboundary := hkey.boundary
  rw [head?_of_ne_nil hkey.key_ne] at hboundary
  exact ⟨hboundary, hmaximal.accepted, hkey.marker⟩

/-- Behind other text than a key, a separator stays. -/
theorem keysFrom_separator (hfront : Unseparated front) (hsolid : EndsSolid front)
    (hmark : isSeparatorCode mark = true) (hkey : ¬ EndsKey isWord previous front) :
    keysFrom isWord previous (front ++ mark :: rest) =
      front ++ mark :: keysFrom isWord (some mark) rest := by
  have hmarked : match? (keyValueSecretPattern isWord) (lastOr previous front) (mark :: rest) =
      none := by
    by_contra hmatch
    have hnil := @key_of_match isWord (lastOr previous front) [] rest mark (by simp [Unseparated])
      (by simp [EndsSolid]) hmark hmatch
    exact absurd hnil.2.2 (by decide)
  rw [keysFrom, substituteFrom_keep, substituteFrom_none hmarked]
  intro taken code left htext
  by_contra hmatch
  subst htext
  exact hkey ⟨taken, code :: left, rfl, key_of_match hfront.right hsolid.right hmark hmatch⟩

/-- Behind a key, the value is masked. -/
theorem keysFrom_key {after quote value closing left : Str} (hfront : Unseparated front)
    (hsolid : EndsSolid front) (hmark : isSeparatorCode mark = true)
    (hkey : EndsKey isWord previous front) (hafter : ∀ code ∈ after, isSpaceCode code = true)
    (hquote : quote = [] ∨ ∃ code, isQuoteCode code = true ∧ quote = [code]) (hne : value ≠ [])
    (hvalue : Maximal isValueCode (value ++ (closing ++ left)) value (closing ++ left))
    (hclosing : leadingQuote (closing ++ left) = closing) :
    keysFrom isWord previous (front ++ mark :: (after ++ (quote ++ (value ++ (closing ++ left))))) =
      front ++ mark :: (after ++ (quote ++ (redactedSecret ++ (closing ++
        keysFrom isWord (lastOr (some mark) (after ++ (quote ++ (value ++ closing)))) left)))) := by
  induction front generalizing previous with
  | nil =>
      obtain ⟨first, key, htext, -, -, hmarker⟩ := hkey
      obtain ⟨-, rfl⟩ := List.append_eq_nil_iff.mp htext.symm
      exact absurd hmarker (by decide)
  | cons code front ih =>
      by_cases hhere : (previous.any isWord != (code :: front).head?.any isWord) = true ∧
          (∀ other ∈ code :: front, isKeyCode other = true) ∧ HasMarker (code :: front)
      · obtain ⟨hboundary, hkeys, hmarker⟩ := hhere
        have hseparated : Separated ([] ++ mark :: (after ++ [])) [] mark after [] :=
          ⟨rfl, by simp, hmark, ⟨rfl, hafter, by simp⟩⟩
        have hmatch := match?_keyValueSecretPattern.mpr ⟨_, _, _, _, _, _, _, rfl,
          KeyMatch.of_parts hkeys hmarker hboundary hseparated hquote hne hvalue hclosing⟩
        have htext : (code :: front) ++ (([] ++ mark :: after) ++ quote) ++
            (value ++ (closing ++ left)) =
              (code :: front) ++ mark :: (after ++ (quote ++ (value ++ (closing ++ left)))) := by
          simp
        rw [htext] at hmatch
        have hlast : lastOr previous
            [[], code :: front, [] ++ mark :: after, quote, value, closing].flatten =
              lastOr (some mark) (after ++ (quote ++ (value ++ closing))) := by
          have hflat : [[], code :: front, [] ++ mark :: after, quote, value, closing].flatten =
              (code :: front) ++ mark :: (after ++ (quote ++ (value ++ closing))) := by simp
          rw [hflat, lastOr_append, lastOr_cons]
        rw [keysFrom, substituteFrom_match hmatch (by simp), hlast]
        simp [redactedKeyValue]
      · have hnone : match? (keyValueSecretPattern isWord) previous ((code :: front) ++
            mark :: (after ++ (quote ++ (value ++ (closing ++ left))))) = none := by
          by_contra hmatch
          exact hhere (key_of_match hfront hsolid hmark hmatch)
        obtain ⟨first, key, htext, hboundary, hkeys, hmarker⟩ := hkey
        have hlater : EndsKey isWord (some code) front := by
          cases first with
          | nil =>
              rw [List.nil_append] at htext
              rw [← htext] at hboundary hkeys hmarker
              exact absurd ⟨hboundary, hkeys, hmarker⟩ hhere
          | cons other first =>
              obtain ⟨rfl, hrest⟩ := List.cons.inj htext
              rw [lastOr_cons] at hboundary
              exact ⟨first, key, hrest, hboundary, hkeys, hmarker⟩
        have hrest : EndsSolid front := by
          rw [← List.singleton_append] at hsolid
          exact hsolid.right
        rw [List.cons_append] at hnone ⊢
        rw [keysFrom, substituteFrom_none hnone, List.cons_append]
        congr 1
        exact ih (fun other hother => hfront other (List.mem_cons_of_mem _ hother)) hrest hlater

end Separators

end MuxivoConsole
