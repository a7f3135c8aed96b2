/-
Redaction of text is idempotent: each of the three passes leaves a text in which all its matches
are replaced by themselves, and the later passes keep that.
-/
import MuxivoConsole.Guarantees.RedactionMatches
import MuxivoConsole.Regex.Stability

namespace MuxivoConsole

open Text Regex

section Masks

variable {opens accepts : Nat → Bool} {opened : Bool} {codes result first rest : Str} {code : Nat}

/-- A text and the one in which some values have been masked.  A value begins after a character that
opens it, and it ends before a character that is no part of it. -/
inductive Masked (opens accepts : Nat → Bool) : Bool → Str → Str → Prop where
  | nil {opened : Bool} : Masked opens accepts opened [] []
  | keep {opened : Bool} {code : Nat} {rest result : Str} :
      Masked opens accepts (opens code) rest result →
        Masked opens accepts opened (code :: rest) (code :: result)
  | mask {value rest result : Str} : value ≠ [] →
      Maximal accepts (value ++ rest) value rest → Masked opens accepts false rest result →
        Masked opens accepts true (value ++ rest) (redactedSecret ++ result)

theorem redactedSecret_eq : redactedSecret = 91 :: codesOf "REDACTED]" := by decide

/-- What begins without a bracket has been kept that far. -/
theorem Masked.kept (hmasked : Masked opens accepts opened codes (first ++ result))
    (hfirst : 91 ∉ first) : ∃ rest now, codes = first ++ rest ∧
      Masked opens accepts now rest result := by
  induction first generalizing opened codes with
  | nil => exact ⟨codes, opened, rfl, hmasked⟩
  | cons code first ih =>
      generalize hwhole : code :: first ++ result = whole at hmasked
      cases hmasked with
      | nil => cases hwhole
      | keep hrest =>
          obtain ⟨rfl, rfl⟩ := List.cons.inj hwhole
          obtain ⟨rest, now, rfl, hlater⟩ := ih hrest fun hmem =>
            hfirst (List.mem_cons_of_mem _ hmem)
          exact ⟨rest, now, rfl, hlater⟩
      | mask _ _ _ =>
          rw [redactedSecret_eq] at hwhole
          obtain ⟨rfl, -⟩ := List.cons.inj hwhole
          exact absurd List.mem_cons_self hfirst

theorem Masked.append (hrest : Masked opens accepts (opens code) rest result) :
    Masked opens accepts opened (first ++ code :: rest) (first ++ code :: result) := by
  induction first generalizing opened with
  | nil => exact .keep hrest
  | cons head first ih => exact .keep ih

/-- Where no value begins, the next characters have been kept. -/
theorem Masked.same (hmasked : Masked opens accepts false (first ++ rest) result)
    (hfirst : ∀ code ∈ first, opens code = false) :
    ∃ later, result = first ++ later ∧ Masked opens accepts false rest later := by
  induction first generalizing result with
  | nil => exact ⟨result, rfl, hmasked⟩
  | cons code first ih =>
      generalize hwhole : code :: first ++ rest = whole at hmasked
      cases hmasked with
      | nil => cases hwhole
      | keep hrest =>
          obtain ⟨rfl, rfl⟩ := List.cons.inj hwhole
          rw [hfirst code List.mem_cons_self] at hrest
          obtain ⟨later, rfl, hlater⟩ := ih hrest fun other hother =>
            hfirst other (List.mem_cons_of_mem _ hother)
          exact ⟨later, rfl, hlater⟩

/-- A masked text begins as the other one does, except for a mask. -/
theorem Masked.head? (hmasked : Masked opens accepts opened codes result) :
    result.head? = codes.head? ∨
      ∃ first ∈ codes.head?, accepts first = true ∧ result.head? = some 91 := by
  cases hmasked with
  | nil => exact Or.inl rfl
  | keep hrest => exact Or.inl rfl
  | mask hne hmaximal hrest =>
      rename_i value rest result
      cases value with
      | nil => exact absurd rfl hne
      | cons code value =>
          exact Or.inr ⟨code, rfl, hmaximal.accepted code List.mem_cons_self, by
            rw [redactedSecret_eq]; rfl⟩

/-- A value that is already masked stays. -/
theorem Masked.masked (hmasked : Masked opens accepts opened (redactedSecret ++ rest) result)
    (hopens : ∀ code ∈ redactedSecret, opens code = false)
    (haccepts : ∀ code ∈ redactedSecret, accepts code = true)
    (hrest : ∀ code ∈ rest.head?, ¬ accepts code = true) :
    ∃ later, result = redactedSecret ++ later ∧ Masked opens accepts false rest later := by
  generalize hwhole : redactedSecret ++ rest = whole at hmasked
  cases hmasked with
  | nil =>
      rw [redactedSecret_eq] at hwhole
      cases hwhole
  | keep hlater =>
      rename_i code others later
      rw [redactedSecret_eq, List.cons_append] at hwhole
      obtain ⟨rfl, rfl⟩ := List.cons.inj hwhole
      rw [hopens 91 (by decide)] at hlater
      obtain ⟨last, rfl, hlast⟩ := hlater.same fun code hcode =>
        hopens code (by rw [redactedSecret_eq]; exact List.mem_cons_of_mem _ hcode)
      exact ⟨last, by rw [redactedSecret_eq]; rfl, hlast⟩
  | mask hne hmaximal hlater =>
      rename_i value others later
      have hsame : Maximal accepts (redactedSecret ++ rest) redactedSecret rest :=
        ⟨rfl, haccepts, hrest⟩
      rw [hwhole] at hsame
      obtain ⟨hvalue, hothers⟩ := maximal_iff.mp hmaximal
      obtain ⟨hvalue', hothers'⟩ := maximal_iff.mp hsame
      rw [hothers, ← hothers'] at hlater
      exact ⟨later, rfl, hlater⟩

end Masks

section Bearer

variable {isWord opens accepts : Nat → Bool} {opened : Bool} {previous previous' : Option Nat}
  {codes result word blanks rest : Str} {code : Nat}

/-- A text that holds no bearer credential. -/
abbrev NoBearer (isWord : Nat → Bool) (previous : Option Nat) (codes : Str) : Prop :=
  Everywhere (fun before text => match? (bearerPattern isWord) before text = none) previous codes

/-- What a bearer credential begins with, up to the first character of its value. -/
structure BearerBegins (isWord : Nat → Bool) (previous : Option Nat) (first : Nat)
    (word blanks : Str) (head : Nat) : Prop where
  boundary : (previous.any isWord != isWord first) = true
  letters : (first :: word).map foldCase = codesOf "bearer"
  spaces : ∀ code ∈ blanks, isSpaceCode code
  blanks_ne : blanks ≠ []
  token : isBearerCode head = true

theorem match?_bearerPattern_ne_none : match? (bearerPattern isWord) previous codes ≠ none ↔
    ∃ first word blanks head rest, codes = first :: (word ++ (blanks ++ head :: rest)) ∧
      BearerBegins isWord previous first word blanks head := by
  constructor
  · intro hsome
    obtain ⟨⟨texts, left⟩, hmatch⟩ := Option.ne_none_iff_exists'.mp hsome
    obtain ⟨word, blanks, value, -, hbearer⟩ := match?_bearerPattern_eq_some.mp hmatch
    have hletters := hbearer.letters
    cases word with
    | nil => exact absurd hletters (by decide)
    | cons first word =>
        cases value with
        | nil => exact absurd rfl hbearer.value_ne
        | cons head value =>
            have hboundary := hbearer.boundary
            rw [← hbearer.text] at hboundary
            exact ⟨first, word, blanks, head, value ++ left, hbearer.text.symm, hboundary,
              hletters, hbearer.spaces.accepted, hbearer.blanks_ne,
              hbearer.token.accepted head List.mem_cons_self⟩
  · rintro ⟨first, word, blanks, head, rest, rfl, hbegins⟩
    have htoken := @maximal_takeWhile _ isBearerCode (head :: rest)
    have hspace : ¬ isSpaceCode head = true := fun hspace =>
      not_isBearerCode_of_isSpaceCode hspace hbegins.token
    have hmatch : BearerMatch isWord previous (first :: (word ++ (blanks ++ head :: rest)))
        (first :: word) blanks ((head :: rest).takeWhile isBearerCode)
          ((head :: rest).dropWhile isBearerCode) := by
      refine ⟨hbegins.boundary, hbegins.letters, ?_, ?_, ?_, hbegins.blanks_ne, ?_⟩
      · rw [htoken.text]
        rfl
      · rw [htoken.text]
        refine ⟨rfl, hbegins.spaces, ?_⟩
        rintro other hother
        cases hother
        exact hspace
      · rwa [htoken.text]
      · rw [List.takeWhile_cons_of_pos hbegins.token]
        exact List.cons_ne_nil _ _
    rw [match?_bearerPattern_eq_some.mpr ⟨_, blanks, _, rfl, hmatch⟩]
    exact Option.some_ne_none _

theorem BearerBegins.fold {first head : Nat}
    (hbegins : BearerBegins isWord previous first word blanks head) : foldCase first = 98 := by
  have hhead := congrArg List.head? hbegins.letters
  rw [List.map_cons, List.head?_cons] at hhead
  exact Option.some.inj (hhead.trans (by decide))

theorem match?_bearerPattern_eq_none
    (hfirst : ∀ code ∈ codes.head?, foldCase code ≠ 98) :
    match? (bearerPattern isWord) previous codes = none := by
  by_contra hsome
  obtain ⟨first, word, blanks, head, rest, rfl, hbegins⟩ := match?_bearerPattern_ne_none.mp hsome
  exact hfirst first rfl hbegins.fold

theorem foldCase_of_isSpaceCode (hspace : isSpaceCode code = true) :
    code ≠ 91 ∧ foldCase code ≠ 98 := by
  rw [isSpaceCode_iff] at hspace
  unfold foldCase
  split_ifs <;> omega

theorem isAlphanumericCode_of_foldCase (hfold : 97 ≤ foldCase code ∧ foldCase code ≤ 122) :
    isAlphanumericCode code = true := by
  simp [isAlphanumericCode, hfold]

/-- The word `bearer` has one `b` only. -/
theorem BearerBegins.kept {first head : Nat}
    (hbegins : BearerBegins isWord previous first word blanks head) :
    91 ∉ word ++ (blanks ++ [head]) ∧ ∀ code ∈ word ++ blanks, foldCase code ≠ 98 := by
  have hword : ∀ code ∈ word, foldCase code ∈ codesOf "earer" := by
    intro code hcode
    have htail := congrArg List.tail hbegins.letters
    rw [List.map_cons, List.tail_cons] at htail
    have hmem := List.mem_map_of_mem (f := foldCase) hcode
    rw [htail] at hmem
    exact hmem
  constructor
  · intro hmem
    simp only [List.mem_append, List.mem_singleton] at hmem
    rcases hmem with hmem | hmem | hmem
    · exact absurd (hword 91 hmem) (by decide)
    · exact (foldCase_of_isSpaceCode (hbegins.spaces 91 hmem)).1 rfl
    · have htoken := hbegins.token
      rw [← hmem] at htoken
      exact absurd htoken (by decide)
  · intro code hcode hfold
    rcases List.mem_append.mp hcode with hcode | hcode
    · have hmem := hword code hcode
      rw [hfold] at hmem
      exact absurd hmem (by decide)
    · exact (foldCase_of_isSpaceCode (hbegins.spaces code hcode)).2 hfold

theorem foldCase_ne_of_mem_redactedSecret : ∀ code ∈ redactedSecret, foldCase code ≠ 98 := by
  decide

/-- Masks bring no bearer credential about. -/
theorem Masked.noBearer (hmasked : Masked opens accepts opened codes result)
    (haccepts : ∀ code, isAlphanumericCode code = true → accepts code = true)
    (hprevious : previous' = previous ∨ ∀ code ∈ codes.head?, ¬ accepts code = true)
    (hnone : NoBearer isWord previous codes) : NoBearer isWord previous' result := by
  induction hmasked generalizing previous previous' with
  | nil => exact everywhere_nil.mpr (match?_bearerPattern_eq_none (by simp))
  | keep hrest ih =>
      rename_i code rest result
      obtain ⟨hhere, hlater⟩ := everywhere_cons.mp hnone
      refine everywhere_cons.mpr ⟨?_, ih (Or.inl rfl) hlater⟩
      by_contra hsome
      obtain ⟨first, word, blanks, head, others, hresult, hbegins⟩ :=
        match?_bearerPattern_ne_none.mp hsome
      obtain ⟨rfl, rfl⟩ := List.cons.inj hresult
      have hbefore : previous' = previous := by
        rcases hprevious with hsame | hother
        · exact hsame
        · have hfold := hbegins.fold
          exact absurd (haccepts code (isAlphanumericCode_of_foldCase (by omega)))
            (hother code rfl)
      -- all of it has been kept, so it stood there before
      have hwhole : word ++ (blanks ++ head :: others) =
          (word ++ (blanks ++ [head])) ++ others := by simp
      rw [hwhole] at hrest
      obtain ⟨rest, -, rfl, -⟩ := hrest.kept hbegins.kept.1
      refine match?_bearerPattern_ne_none.mpr ⟨code, word, blanks, head, rest, by simp, ?_⟩ hhere
      rwa [← hbefore]
  | mask hne hmaximal hrest ih =>
      refine everywhere_append.mpr ⟨?_, ih (Or.inr hmaximal.stop) (everywhere_append.mp hnone).2⟩
      intro taken code left htext
      refine match?_bearerPattern_eq_none fun other hother => ?_
      cases hother
      refine foldCase_ne_of_mem_redactedSecret code ?_
      rw [← htext]
      simp

/-- A text and the one that the bearer pass makes of it. -/
inductive BearerMasked : Str → Str → Prop where
  | nil : BearerMasked [] []
  | keep {code : Nat} {rest result : Str} :
      BearerMasked rest result → BearerMasked (code :: rest) (code :: result)
  | mask {first : Nat} {others rest result : Str} : foldCase first = 98 →
      BearerMasked rest result →
        BearerMasked (first :: others ++ rest) (codesOf "Bearer " ++ redactedSecret ++ result)

theorem bearerMask_eq : codesOf "Bearer " ++ redactedSecret = 66 :: codesOf "earer [REDACTED]" := by
  decide

/-- Before a `b` all has been kept. -/
theorem BearerMasked.kept {first : Str} (hmasked : BearerMasked codes (first ++ code :: result))
    (hfirst : ∀ code ∈ first, foldCase code ≠ 98) :
    ∃ head rest, codes = first ++ head :: rest ∧ (head = code ∨ foldCase head = 98) := by
  induction first generalizing codes with
  | nil =>
      generalize hwhole : [] ++ code :: result = whole at hmasked
      cases hmasked with
      | nil => cases hwhole
      | keep hrest =>
          obtain ⟨rfl, -⟩ := List.cons.inj hwhole
          exact ⟨_, _, rfl, Or.inl rfl⟩
      | mask hfold hrest => exact ⟨_, _, rfl, Or.inr hfold⟩
  | cons other first ih =>
      generalize hwhole : other :: first ++ code :: result = whole at hmasked
      cases hmasked with
      | nil => cases hwhole
      | keep hrest =>
          obtain ⟨rfl, rfl⟩ := List.cons.inj hwhole
          obtain ⟨head, rest, rfl, hhead⟩ := ih hrest fun code hcode =>
            hfirst code (List.mem_cons_of_mem _ hcode)
          exact ⟨head, rest, rfl, hhead⟩
      | mask hfold hrest =>
          rw [bearerMask_eq] at hwhole
          obtain ⟨rfl, -⟩ := List.cons.inj hwhole
          exact absurd (by decide) (hfirst 66 List.mem_cons_self)

theorem flatten_bearerMatch_ne_nil : ∀ previous codes texts left,
    match? (bearerPattern isWord) previous codes = some (texts, left) → texts.flatten ≠ [] := by
  intro previous codes texts left hmatch
  obtain ⟨word, blanks, value, rfl, hbearer⟩ := match?_bearerPattern_eq_some.mp hmatch
  simp [hbearer.blanks_ne]

/-- The mask of a bearer credential is none itself. -/
theorem noBearer_mask (hrest : ∀ before, NoBearer isWord before result) :
    NoBearer isWord previous (codesOf "Bearer " ++ redactedSecret ++ result) := by
  have hword : codesOf "Bearer " ++ redactedSecret ++ result =
      66 :: (codesOf "earer [REDACTED]" ++ result) := by
    rw [bearerMask_eq]
    rfl
  have hother : ∀ code ∈ codesOf "earer [REDACTED]", foldCase code ≠ 98 := by decide
  rw [hword]
  refine everywhere_cons.mpr ⟨?_, everywhere_append.mpr ⟨?_, hrest _⟩⟩
  · rw [match?_bearerPattern, if_neg]
    rintro ⟨-, -, -, hvalue⟩
    exact hvalue rfl
  · intro taken code left htext
    refine match?_bearerPattern_eq_none fun other hmem => ?_
    cases hmem
    refine hother code ?_
    rw [← htext]
    simp

/-- After the first pass no bearer credential is left. -/
theorem noBearer_redactBearer (text : Str) : NoBearer isWord none (redactBearer isWord text) := by
  suffices hpass : ∀ previous codes, (fun previous codes result => BearerMasked codes result ∧
      ∀ previous', (previous' = previous ∨ ∀ code ∈ codes.head?, ¬ isBearerCode code = true) →
        NoBearer isWord previous' result) previous codes
      (substituteFrom (bearerPattern isWord) (fun _ => codesOf "Bearer " ++ redactedSecret) 0
        previous codes) from (hpass none text).2 none (Or.inl rfl)
  refine substituteFrom_induction (motive := fun previous codes result =>
      BearerMasked codes result ∧
        ∀ previous', (previous' = previous ∨ ∀ code ∈ codes.head?, ¬ isBearerCode code = true) →
          NoBearer isWord previous' result) flatten_bearerMatch_ne_nil ?_ ?_ ?_
  · exact fun previous => ⟨.nil, fun previous' _ =>
      everywhere_nil.mpr (match?_bearerPattern_eq_none (by simp))⟩
  · rintro previous code rest hmatch ⟨hmasked, ih⟩
    refine ⟨.keep hmasked, fun previous' hprevious => everywhere_cons.mpr ⟨?_, ih _ (Or.inl rfl)⟩⟩
    by_contra hsome
    obtain ⟨first, word, blanks, head, others, hresult, hbegins⟩ :=
      match?_bearerPattern_ne_none.mp hsome
    obtain ⟨rfl, hrest⟩ := List.cons.inj hresult
    have hbefore : previous' = previous := by
      rcases hprevious with hsame | hother
      · exact hsame
      · have hfold := hbegins.fold
        refine absurd ?_ (hother code rfl)
        rw [isBearerCode_iff]
        exact Or.inl (isAlphanumericCode_of_foldCase (by omega))
    rw [hrest, ← List.append_assoc] at hmasked
    obtain ⟨head', rest', rfl, hhead⟩ := hmasked.kept hbegins.kept.2
    have htoken : isBearerCode head' = true := by
      rcases hhead with rfl | hfold
      · exact hbegins.token
      · rw [isBearerCode_iff]
        exact Or.inl (isAlphanumericCode_of_foldCase (by omega))
    refine match?_bearerPattern_ne_none.mpr ⟨code, word, blanks, head', rest', by simp, ?_⟩ hmatch
    exact ⟨hbefore ▸ hbegins.boundary, hbegins.letters, hbegins.spaces, hbegins.blanks_ne, htoken⟩
  · rintro previous codes texts left hmatch ⟨hmasked, ih⟩
    obtain ⟨word, blanks, value, rfl, hbearer⟩ := match?_bearerPattern_eq_some.mp hmatch
    have hrest (before : Option Nat) := ih before (Or.inr hbearer.token.stop)
    refine ⟨?_, fun previous' _ => noBearer_mask hrest⟩
    have hletters := hbearer.letters
    cases word with
    | nil => exact absurd hletters (by decide)
    | cons first word =>
        have hfold : foldCase first = 98 := by
          have hhead := congrArg List.head? hletters
          rw [List.map_cons, List.head?_cons] at hhead
          exact Option.some.inj (hhead.trans (by decide))
        have hcodes : codes = first :: (word ++ (blanks ++ value)) ++ left := by
          rw [← hbearer.text]
          simp
        rw [hcodes]
        exact .mask hfold hmasked

end Bearer

section Separators

variable {rest before after follows : Str} {mark code : Nat}

/-- Before the value of a header stands a separator or a space. -/
def opensHeader (code : Nat) : Bool :=
  isSeparatorCode code || isSpaceCode code

theorem Separated.opens (hseparated : Separated rest before mark after follows) :
    ∃ init last, before ++ mark :: after = init ++ [last] ∧ opensHeader last = true := by
  rcases List.eq_nil_or_concat after with rfl | ⟨init, last, rfl⟩
  · exact ⟨before, mark, rfl, by simp [opensHeader, hseparated.mark]⟩
  · refine ⟨before ++ mark :: init, last, by simp, ?_⟩
    simp [opensHeader, hseparated.after.accepted last (by simp)]

theorem Separated.no_bracket (hseparated : Separated rest before mark after follows) :
    ∀ code ∈ before ++ mark :: after, code ≠ 91 ∧ foldCase code ≠ 97 ∧ ¬ isKeyCode code = true := by
  intro code hcode
  have hkind : isSpaceCode code = true ∨ isSeparatorCode code = true := by
    simp only [List.mem_append, List.mem_cons] at hcode
    rcases hcode with hcode | rfl | hcode
    · exact Or.inl (hseparated.before code hcode)
    · exact Or.inr hseparated.mark
    · exact Or.inl (hseparated.after.accepted code hcode)
  rcases hkind with hspace | hmark
  · refine ⟨(foldCase_of_isSpaceCode hspace).1, ?_, not_isKeyCode_of_isSpaceCode hspace⟩
    rw [isSpaceCode_iff] at hspace
    unfold foldCase
    split_ifs <;> omega
  · refine ⟨?_, ?_, not_isKeyCode_of_isSeparatorCode hmark⟩
    · rintro rfl
      exact absurd hmark (by decide)
    · rw [isSeparatorCode_iff] at hmark
      rcases hmark with rfl | rfl <;> decide

/-- The same separator before other text. -/
theorem Separated.of_follows (hseparated : Separated rest before mark after follows)
    {other : Str} (hother : ∀ code ∈ other.head?, ¬ isSpaceCode code = true) :
    Separated (before ++ mark :: (after ++ other)) before mark after other :=
  ⟨rfl, hseparated.before, hseparated.mark, ⟨rfl, hseparated.after.accepted, hother⟩⟩

/-- A text is separated in one way. -/
theorem Separated.unique (hseparated : Separated rest before mark after follows)
    {before' after' follows' : Str} {mark' : Nat}
    (hseparated' : Separated rest before' mark' after' follows') :
    before = before' ∧ mark = mark' ∧ after = after' ∧ follows = follows' := by
  obtain ⟨hbefore, hmark⟩ := maximal_iff.mp hseparated.maximal
  obtain ⟨hbefore', hmark'⟩ := maximal_iff.mp hseparated'.maximal
  rw [← hmark'] at hmark
  obtain ⟨rfl, hsame⟩ := List.cons.inj hmark
  obtain ⟨hafter, hfollows⟩ := maximal_iff.mp hseparated.after
  obtain ⟨hafter', hfollows'⟩ := maximal_iff.mp hseparated'.after
  rw [← hsame] at hafter' hfollows'
  exact ⟨hbefore.trans hbefore'.symm, rfl, hafter.trans hafter'.symm,
    hfollows.trans hfollows'.symm⟩

end Separators

section Authorization

variable {opens accepts : Nat → Bool} {opened : Bool} {previous : Option Nat}
  {codes result word before after value left head suffix : Str} {mark : Nat}

/-- The headers of a text are masked. -/
abbrev HeadersMasked (previous : Option Nat) (codes : Str) : Prop :=
  Everywhere (SelfReplaced authorizationHeaderPattern redactedHeader) previous codes

theorem not_isSpaceCode_of_isHeaderCode {code : Nat} (hcode : isHeaderCode code = true) :
    ¬ isSpaceCode code = true := by
  rw [isHeaderCode_iff] at hcode
  simp [hcode.2.2]

theorem head?_of_ne_nil {first rest : Str} (hne : first ≠ []) :
    (first ++ rest).head? = first.head? := by
  cases first with
  | nil => exact absurd rfl hne
  | cons => rfl

/-- A header keeps its way to match if its value is replaced. -/
theorem AuthorizationMatch.replace
    (hmatch : AuthorizationMatch codes word before mark after value left) {other rest : Str}
    (hne : other ≠ []) (hother : Maximal isHeaderCode (other ++ rest) other rest) :
    AuthorizationMatch (word ++ (before ++ mark :: after) ++ (other ++ rest)) word before mark after
      other rest := by
  obtain ⟨follows, -, hseparated⟩ := hmatch.text
  refine ⟨hmatch.letters, ⟨before ++ mark :: (after ++ (other ++ rest)), by simp,
    hseparated.of_follows ?_⟩, hother, hne⟩
  intro code hcode
  rw [head?_of_ne_nil hne] at hcode
  exact not_isSpaceCode_of_isHeaderCode
    (hother.accepted code (List.mem_of_mem_head? hcode))

theorem AuthorizationMatch.codes_eq
    (hmatch : AuthorizationMatch codes word before mark after value left) :
    codes = word ++ (before ++ mark :: after) ++ (value ++ left) := by
  obtain ⟨follows, rfl, hseparated⟩ := hmatch.text
  rw [← hseparated.text]
  simp

theorem AuthorizationMatch.no_bracket
    (hmatch : AuthorizationMatch codes word before mark after value left) :
    91 ∉ word ++ (before ++ mark :: after) := by
  obtain ⟨follows, -, hseparated⟩ := hmatch.text
  intro hmem
  rcases List.mem_append.mp hmem with hmem | hmem
  · have hfold := List.mem_map_of_mem (f := foldCase) hmem
    rw [hmatch.letters] at hfold
    exact absurd hfold (by decide)
  · exact (hseparated.no_bracket 91 hmem).1 rfl

theorem not_begins_of_take_ne {target : Str} (hne : head ≠ target.take head.length)
    (hlength : head.length ≤ target.length) : ¬ target <+: head ++ suffix := by
  intro hstart
  rw [List.prefix_iff_eq_take] at hstart
  refine hne ?_
  have htake := congrArg (List.take head.length) hstart
  rw [List.take_take, min_eq_left hlength, List.take_left] at htake
  exact htake.symm

/-- No header begins inside of another one. -/
theorem AuthorizationMatch.not_inside
    (hmatch : AuthorizationMatch codes word before mark after value left) {taken inside rest : Str}
    (htaken : taken ≠ []) (hinside : inside ≠ [])
    (htext : taken ++ inside = word ++ (before ++ mark :: after)) :
    ¬ codesOf "authorization" <+: (inside ++ rest).map foldCase := by
  obtain ⟨follows, -, hseparated⟩ := hmatch.text
  have hborder : ∀ count < 13, 0 < count →
      (codesOf "authorization").drop count ≠ (codesOf "authorization").take (13 - count) := by
    decide
  have hlater (middle : Str) (hmiddle : before ++ mark :: after = middle ++ inside) :
      ¬ codesOf "authorization" <+: (inside ++ rest).map foldCase := by
    intro hstart
    cases inside with
    | nil => exact hinside rfl
    | cons code inside =>
        have hfold : 97 = foldCase code := by
          have hcons : codesOf "authorization" = 97 :: codesOf "uthorization" := by decide
          rw [hcons, List.cons_append, List.map_cons] at hstart
          exact (List.cons_prefix_cons.mp hstart).1
        refine (hseparated.no_bracket code ?_).2.1 hfold.symm
        rw [hmiddle]
        simp
  rcases List.append_eq_append_iff.mp htext with ⟨middle, hword, hinner⟩ | ⟨middle, -, hseparator⟩
  · by_cases hmiddle : middle = []
    · subst hmiddle
      exact hlater [] (by rw [hinner]; rfl)
    · have hletters := hmatch.letters
      have hlength : taken.length + middle.length = 13 := by
        have hsame := congrArg List.length hletters
        rw [hword] at hsame
        simpa [codesOf] using hsame
      have hdrop : middle.map foldCase = (codesOf "authorization").drop taken.length := by
        rw [← hletters, hword, List.map_append, List.drop_left' (by simp)]
      have hpositive := List.length_pos_iff.mpr htaken
      have hpositive' := List.length_pos_iff.mpr hmiddle
      have hcount : middle.length = 13 - taken.length := by omega
      rw [hinner, List.append_assoc, List.map_append]
      refine not_begins_of_take_ne ?_ ?_
      · rw [hdrop, ← hdrop, List.length_map, hcount, hdrop]
        exact hborder taken.length (by omega) hpositive
      · rw [List.length_map, hcount]
        have hthirteen : (codesOf "authorization").length = 13 := by decide
        omega
  · exact hlater middle hseparator

/-- No header begins inside of a mask. -/
theorem not_begins_mask {taken rest : Str} {code : Nat} {others : Str}
    (htext : taken ++ code :: others = redactedSecret) :
    ¬ codesOf "authorization" <+: (code :: others ++ rest).map foldCase := by
  have hnone : ∀ count < 10, (redactedSecret.drop count).map foldCase ≠
      (codesOf "authorization").take (10 - count) := by decide
  have hlength : taken.length + (others.length + 1) = 10 := by
    have hsame := congrArg List.length htext
    rwa [List.length_append, List.length_cons] at hsame
  have hdrop : code :: others = redactedSecret.drop taken.length := by
    rw [← htext, List.drop_left]
  have hcount : (code :: others).length = 10 - taken.length := by
    rw [List.length_cons]
    omega
  rw [List.map_append]
  refine not_begins_of_take_ne ?_ ?_
  · rw [List.length_map, hcount, hdrop]
    exact hnone taken.length (by omega)
  · have hthirteen : (codesOf "authorization").length = 13 := by decide
    rw [List.length_map, hcount]
    omega

theorem AuthorizationMatch.begins
    (hmatch : AuthorizationMatch codes word before mark after value left) :
    codesOf "authorization" <+: codes.map foldCase := by
  obtain ⟨follows, rfl, -⟩ := hmatch.text
  exact begins_of_map_foldCase hmatch.letters

theorem selfReplaced_of_not_begins
    (hstart : ¬ codesOf "authorization" <+: codes.map foldCase) :
    SelfReplaced authorizationHeaderPattern redactedHeader previous codes := by
  intro texts left hmatch
  obtain ⟨word, before, mark, after, value, -, hheader⟩ :=
    match?_authorizationHeaderPattern.mp hmatch
  exact absurd hheader.begins hstart

theorem mask_accepted : (∀ code ∈ redactedSecret, isHeaderCode code = true) ∧
    (∀ code ∈ redactedSecret, isValueCode code = true) := by
  decide

theorem redactedSecret_ne_nil : redactedSecret ≠ [] := by decide

/-- A mask that is followed by what is no part of a value. -/
theorem maximal_mask {rest : Str} (haccepts : ∀ code ∈ redactedSecret, accepts code = true)
    (hrest : ∀ code ∈ rest.head?, ¬ accepts code = true) :
    Maximal accepts (redactedSecret ++ rest) redactedSecret rest :=
  ⟨rfl, haccepts, hrest⟩

/-- What is kept at the end of a value ends the mask as well. -/
theorem Masked.stop (hmasked : Masked opens accepts false codes result) {stops : Nat → Bool}
    (hcodes : ∀ code ∈ codes.head?, ¬ stops code = true) :
    ∀ code ∈ result.head?, ¬ stops code = true := by
  cases hmasked with
  | nil => exact hcodes
  | keep hrest => exact hcodes

/-- The header that is masked is replaced by itself. -/
theorem selfReplaced_header {rest : Str}
    (hmatch : match? authorizationHeaderPattern previous codes =
      some ([head, redactedSecret], rest)) :
    SelfReplaced authorizationHeaderPattern redactedHeader previous codes := by
  intro texts left hother
  rw [hmatch] at hother
  obtain ⟨rfl, rfl⟩ := Prod.mk.inj (Option.some.inj hother)
  simp [redactedHeader]

theorem flatten_authorizationMatch_ne_nil : ∀ previous codes texts left,
    match? authorizationHeaderPattern previous codes = some (texts, left) →
      texts.flatten ≠ [] := by
  intro previous codes texts left hmatch
  obtain ⟨word, before, mark, after, value, rfl, hheader⟩ :=
    match?_authorizationHeaderPattern.mp hmatch
  simp

/-- The places of a mask and of what follows it. -/
theorem headersMasked_mask {rest : Str} (hrest : ∀ before, HeadersMasked before rest) :
    HeadersMasked previous (redactedSecret ++ rest) := by
  refine everywhere_append.mpr ⟨?_, hrest _⟩
  intro taken code others htext
  exact selfReplaced_of_not_begins (not_begins_mask htext)

/-- A header in a masked text was a header before. -/
theorem Masked.header (hmasked : Masked opens accepts opened codes result)
    (haccepts : ∀ code, accepts code = true → isHeaderCode code = true)
    (hmatch : AuthorizationMatch result word before mark after value left) :
    ∃ now value' left', Masked opens accepts now (value' ++ left') (value ++ left) ∧
      AuthorizationMatch codes word before mark after value' left' := by
  rw [hmatch.codes_eq] at hmasked
  obtain ⟨rest, now, rfl, hrest⟩ := hmasked.kept hmatch.no_bracket
  have hmaximal := @maximal_takeWhile _ isHeaderCode rest
  have hne : rest.takeWhile isHeaderCode ≠ [] := by
    have hhead := hrest.head?
    rw [head?_of_ne_nil hmatch.value_ne] at hhead
    cases hvalue : value with
    | nil => exact absurd hvalue hmatch.value_ne
    | cons first others =>
        rw [hvalue, List.head?_cons] at hhead
        have hfirst := hmatch.maximal.accepted first (by simp [hvalue])
        cases rest with
        | nil => simp at hhead
        | cons code rest =>
            have hcode : isHeaderCode code = true := by
              rcases hhead with hsame | ⟨other, hother, haccepted, -⟩
              · rw [← Option.some.inj hsame]
                exact hfirst
              · rw [Option.some.inj hother]
                exact haccepts _ haccepted
            rw [List.takeWhile_cons_of_pos hcode]
            exact List.cons_ne_nil _ _
  have hold := hmatch.replace hne (by rwa [hmaximal.text])
  rw [hmaximal.text] at hold
  exact ⟨now, _, _, by rwa [hmaximal.text], hold⟩

/-- After the second pass all headers are masked. -/
theorem redactAuthorization_masks (text : Str) :
    Masked opensHeader isHeaderCode false text (redactAuthorization text) ∧
      HeadersMasked none (redactAuthorization text) := by
  suffices hpass : ∀ previous codes, (fun (_ : Option Nat) codes result =>
      (∀ opened, Masked opensHeader isHeaderCode opened codes result) ∧
        ∀ before, HeadersMasked before result) previous codes
      (substituteFrom authorizationHeaderPattern redactedHeader 0 previous codes) from
    ⟨(hpass none text).1 false, (hpass none text).2 none⟩
  refine substituteFrom_induction (motive := fun _ codes result =>
      (∀ opened, Masked opensHeader isHeaderCode opened codes result) ∧
        ∀ before, HeadersMasked before result) flatten_authorizationMatch_ne_nil ?_ ?_ ?_
  · exact fun previous => ⟨fun _ => .nil, fun before =>
      everywhere_nil.mpr (selfReplaced_of_not_begins (by decide))⟩
  · rintro previous code rest hmatch ⟨hmasked, ih⟩
    refine ⟨fun _ => .keep (hmasked _), fun _ => everywhere_cons.mpr ⟨?_, ih _⟩⟩
    intro texts left hresult
    obtain ⟨word, before, mark, after, value, rfl, hheader⟩ :=
      match?_authorizationHeaderPattern.mp hresult
    have hkept : Masked opensHeader isHeaderCode false (code :: rest) (code :: _) :=
      .keep (hmasked _)
    obtain ⟨-, value', left', -, hold⟩ := hkept.header (fun _ haccepted => haccepted) hheader
    rw [match?_authorizationHeaderPattern.mpr ⟨word, before, mark, after, value', rfl, hold⟩]
      at hmatch
    cases hmatch
  · intro previous codes texts left hmatch hpassed
    obtain ⟨word, before, mark, after, value, rfl, hheader⟩ :=
      match?_authorizationHeaderPattern.mp hmatch
    generalize substituteFrom authorizationHeaderPattern redactedHeader 0
      (lastOr previous [word ++ (before ++ mark :: after), value].flatten) left = result
      at hpassed ⊢
    obtain ⟨hmasked, ih⟩ := hpassed
    have hmask := maximal_mask mask_accepted.1 ((hmasked false).stop hheader.maximal.stop)
    constructor
    · intro opened
      obtain ⟨follows, -, hseparated⟩ := hheader.text
      obtain ⟨init, last, hlast, hopens⟩ := hseparated.opens
      have hrest : Masked opensHeader isHeaderCode (opensHeader last) (value ++ left)
          (redactedSecret ++ result) := by
        rw [hopens]
        exact .mask hheader.value_ne hheader.maximal (hmasked false)
      have hwhole : Masked opensHeader isHeaderCode opened
          ((word ++ init) ++ last :: (value ++ left))
            ((word ++ init) ++ last :: (redactedSecret ++ result)) := hrest.append
      rw [hheader.codes_eq, redactedHeader, hlast]
      simpa using hwhole
    · intro earlier
      rw [redactedHeader, List.append_assoc]
      refine everywhere_append.mpr ⟨?_, headersMasked_mask ih⟩
      intro taken code others htext
      cases taken with
      | nil =>
          rw [List.nil_append] at htext
          rw [htext]
          exact selfReplaced_header (match?_authorizationHeaderPattern.mpr
            ⟨word, before, mark, after, redactedSecret, rfl,
              hheader.replace redactedSecret_ne_nil hmask⟩)
      | cons first taken =>
          exact selfReplaced_of_not_begins
            (hheader.not_inside (List.cons_ne_nil _ _) (List.cons_ne_nil _ _) htext)

/-- Masks keep the headers masked. -/
theorem Masked.headersMasked (hmasked : Masked opens accepts opened codes result)
    (haccepts : ∀ code, accepts code = true → isHeaderCode code = true)
    (hmask : ∀ code ∈ redactedSecret, opens code = false ∧ accepts code = true)
    (hheaders : HeadersMasked previous codes) {before : Option Nat} :
    HeadersMasked before result := by
  induction hmasked generalizing previous before with
  | nil => exact everywhere_nil.mpr (selfReplaced_of_not_begins (by decide))
  | keep hrest ih =>
      rename_i code rest result
      obtain ⟨hhere, hlater⟩ := everywhere_cons.mp hheaders
      refine everywhere_cons.mpr ⟨?_, ih hlater⟩
      intro texts left hresult
      obtain ⟨word, earlier, mark, after, value, rfl, hheader⟩ :=
        match?_authorizationHeaderPattern.mp hresult
      have hkept : Masked opens accepts false (code :: rest) (code :: result) := .keep hrest
      obtain ⟨now, value', left', hvalue, hold⟩ := hkept.header haccepts hheader
      have hself := hhere _ _ (match?_authorizationHeaderPattern.mpr
        ⟨word, earlier, mark, after, value', rfl, hold⟩)
      -- its value was masked, and that is what it still is
      have hvalue' : value' = redactedSecret := by
        simpa [redactedHeader] using hself.symm
      rw [hvalue'] at hvalue
      obtain ⟨later, hlater, hsame⟩ := hvalue.masked (fun code hcode => (hmask code hcode).1)
        (fun code hcode => (hmask code hcode).2)
        fun code hcode haccepted => hold.maximal.stop code hcode (haccepts code haccepted)
      have hmaximal := maximal_mask mask_accepted.1 (hsame.stop hold.maximal.stop)
      rw [← hlater] at hmaximal
      have hmasks : value = redactedSecret :=
        (maximal_iff.mp hheader.maximal).1.trans (maximal_iff.mp hmaximal).1.symm
      simp [redactedHeader, hmasks]
  | mask hne hmaximal hrest ih =>
      exact headersMasked_mask fun _ => ih (everywhere_append.mp hheaders).2

end Authorization

section KeyValues

variable {isWord opens accepts : Nat → Bool} {opened : Bool} {previous previous' : Option Nat}
  {codes result key before after quote value closing left : Str} {mark : Nat}

/-- The values of the keys of a text are masked. -/
abbrev KeysMasked (isWord : Nat → Bool) (previous : Option Nat) (codes : Str) : Prop :=
  Everywhere (SelfReplaced (keyValueSecretPattern isWord) redactedKeyValue) previous codes

/-- Before the value of a key stands a separator, a space or a quote. -/
def opensValue (code : Nat) : Bool :=
  opensHeader code || isQuoteCode code

theorem isValueCode_of_isKeyCode {code : Nat} (hkey : isKeyCode code = true) :
    isValueCode code = true := by
  rw [isKeyCode_iff, isAlphanumericCode_iff] at hkey
  simp only [isValueCode_iff, Bool.eq_false_iff, ne_eq, isQuoteCode_iff, isSpaceCode_iff]
  omega

theorem isHeaderCode_of_isValueCode {code : Nat} (hvalue : isValueCode code = true) :
    isHeaderCode code = true := by
  rw [isValueCode_iff] at hvalue
  rw [isHeaderCode_iff]
  exact ⟨hvalue.2.2.1, hvalue.2.2.2.1, hvalue.2.1⟩

theorem leadingQuote_cases (codes : Str) :
    leadingQuote codes = [] ∨ ∃ code, isQuoteCode code = true ∧ leadingQuote codes = [code] := by
  unfold leadingQuote
  split_ifs with hquote
  · cases codes with
    | nil => exact Or.inl rfl
    | cons code rest => exact Or.inr ⟨code, by simpa using hquote, rfl⟩
  · exact Or.inl rfl

theorem leadingQuote_of_not_quote {codes : Str}
    (hcodes : ∀ code ∈ codes.head?, ¬ isQuoteCode code = true) : leadingQuote codes = [] := by
  unfold leadingQuote
  rw [if_neg]
  cases codes with
  | nil => simp
  | cons code rest => simpa using hcodes code rfl

theorem KeyMatch.quotes (hmatch : KeyMatch isWord previous codes key before mark after quote value
    closing left) : ∀ code ∈ quote ++ closing, isQuoteCode code = true := by
  have hone {text : Str} (htext : ∃ whole, leadingQuote whole = text) :
      ∀ code ∈ text, isQuoteCode code = true := by
    obtain ⟨whole, rfl⟩ := htext
    intro code hcode
    rcases leadingQuote_cases whole with hnone | ⟨other, hother, hquote⟩
    · simp [hnone] at hcode
    · rw [hquote, List.mem_singleton] at hcode
      rwa [hcode]
  intro code hcode
  rcases List.mem_append.mp hcode with hcode | hcode
  · exact hone ⟨_, hmatch.opening⟩ code hcode
  · exact hone ⟨_, hmatch.closing⟩ code hcode

theorem KeyMatch.codes_eq (hmatch : KeyMatch isWord previous codes key before mark after quote value
    closing left) :
    codes = key ++ ((before ++ mark :: after) ++ quote) ++ (value ++ (closing ++ left)) := by
  obtain ⟨follows, hkey, hseparated⟩ := hmatch.text
  rw [← hkey.text, ← hseparated.text]
  simp

theorem KeyMatch.key_ne (hmatch : KeyMatch isWord previous codes key before mark after quote value
    closing left) : key ≠ [] := by
  rintro rfl
  exact absurd hmatch.marker (by decide)

/-- What makes a match of a key. -/
theorem KeyMatch.of_parts {rest : Str} (hkey : ∀ code ∈ key, isKeyCode code = true)
    (hmarker : HasMarker key)
    (hboundary : (previous.any isWord != key.head?.any isWord) = true)
    (hseparated : Separated rest before mark after [])
    (hquote : quote = [] ∨ ∃ code, isQuoteCode code = true ∧ quote = [code]) (hne : value ≠ [])
    (hvalue : Maximal isValueCode (value ++ (closing ++ left)) value (closing ++ left))
    (hclosing : leadingQuote (closing ++ left) = closing) :
    KeyMatch isWord previous
      (key ++ ((before ++ mark :: after) ++ quote) ++ (value ++ (closing ++ left))) key before mark
        after quote value closing left := by
  have hkeyne : key ≠ [] := by
    rintro rfl
    exact absurd hmarker (by decide)
  have hfirst : ∀ code ∈ (value ++ (closing ++ left)).head?, isValueCode code = true := by
    intro code hcode
    rw [head?_of_ne_nil hne] at hcode
    exact hvalue.accepted code (List.mem_of_mem_head? hcode)
  have hfollows : ∀ code ∈ (quote ++ (value ++ (closing ++ left))).head?,
      ¬ isSpaceCode code = true := by
    intro code hcode
    rcases hquote with rfl | ⟨other, hother, rfl⟩
    · exact not_isSpaceCode_of_isHeaderCode (isHeaderCode_of_isValueCode (hfirst code hcode))
    · cases hcode
      rw [isQuoteCode_iff] at hother
      rw [isSpaceCode_iff]
      omega
  refine ⟨?_, hmarker, ⟨before ++ mark :: (after ++ (quote ++ (value ++ (closing ++ left)))),
    ⟨by simp, hkey, ?_⟩, hseparated.of_follows hfollows⟩, ?_, hvalue, hne, hclosing⟩
  · rwa [List.append_assoc, head?_of_ne_nil hkeyne]
  · intro code hcode
    refine (hseparated.no_bracket code ?_).2.2
    cases before with
    | nil =>
        cases hcode
        simp
    | cons head before =>
        cases hcode
        simp
  · rcases hquote with rfl | ⟨other, hother, rfl⟩
    · refine leadingQuote_of_not_quote fun code hcode => ?_
      have haccepted := hfirst code hcode
      rw [isValueCode_iff] at haccepted
      simp [haccepted.1]
    · simp [leadingQuote, hother]

/-- A text is read as a key and its value in one way. -/
theorem KeyMatch.unique {key' before' after' quote' value' closing' left' : Str} {mark' : Nat}
    (hmatch : KeyMatch isWord previous codes key before mark after quote value closing left)
    (hmatch' : KeyMatch isWord previous codes key' before' mark' after' quote' value' closing'
      left') : value = value' := by
  have hfirst := match?_keyValueSecretPattern.mpr ⟨key, before, mark, after, quote, value, closing,
    rfl, hmatch⟩
  have hsecond := match?_keyValueSecretPattern.mpr ⟨key', before', mark', after', quote', value',
    closing', rfl, hmatch'⟩
  rw [hfirst] at hsecond
  simp only [Option.some.injEq, Prod.mk.injEq, List.cons.injEq] at hsecond
  exact hsecond.1.2.2.2.2.1

/-- A key in a masked text was a key before. -/
theorem Masked.keyValue (hmasked : Masked opens isValueCode opened codes result)
    (hmatch : KeyMatch isWord previous result key before mark after quote value closing left) :
    ∃ value' closing' left',
      KeyMatch isWord previous codes key before mark after quote value' closing' left' := by
  obtain ⟨follows, hkey, hseparated⟩ := hmatch.text
  have hbracket : 91 ∉ key ++ ((before ++ mark :: after) ++ quote) := by
    intro hmem
    rcases List.mem_append.mp hmem with hmem | hmem
    · exact absurd (hkey.accepted 91 hmem) (by decide)
    · rcases List.mem_append.mp hmem with hmem | hmem
      · exact (hseparated.no_bracket 91 hmem).1 rfl
      · exact absurd (hmatch.quotes 91 (List.mem_append_left _ hmem)) (by decide)
  rw [hmatch.codes_eq] at hmasked
  obtain ⟨rest, now, rfl, hrest⟩ := hmasked.kept hbracket
  have hmaximal := @maximal_takeWhile _ isValueCode rest
  have hclosing := leadingQuote_append_drop (rest.dropWhile isValueCode)
  have hne : rest.takeWhile isValueCode ≠ [] := by
    have hhead := hrest.head?
    rw [head?_of_ne_nil hmatch.value_ne] at hhead
    cases hvalue : value with
    | nil => exact absurd hvalue hmatch.value_ne
    | cons first others =>
        rw [hvalue, List.head?_cons] at hhead
        have hfirst := hmatch.maximal.accepted first (by simp [hvalue])
        cases rest with
        | nil => simp at hhead
        | cons code rest =>
            have hcode : isValueCode code = true := by
              rcases hhead with hsame | ⟨other, hother, haccepted, -⟩
              · rw [← Option.some.inj hsame]
                exact hfirst
              · rw [Option.some.inj hother]
                exact haccepted
            rw [List.takeWhile_cons_of_pos hcode]
            exact List.cons_ne_nil _ _
  have hquote := leadingQuote_cases (quote ++ (value ++ (closing ++ left)))
  rw [hmatch.opening] at hquote
  have hboundary := hmatch.boundary
  rw [hmatch.codes_eq, List.append_assoc, head?_of_ne_nil hmatch.key_ne] at hboundary
  have hempty : Separated (before ++ mark :: (after ++ [])) before mark after [] :=
    hseparated.of_follows (by simp)
  have hvalued : Maximal isValueCode (rest.takeWhile isValueCode ++
      (leadingQuote (rest.dropWhile isValueCode) ++ (rest.dropWhile isValueCode).drop
        (leadingQuote (rest.dropWhile isValueCode)).length)) (rest.takeWhile isValueCode)
      (leadingQuote (rest.dropWhile isValueCode) ++ (rest.dropWhile isValueCode).drop
        (leadingQuote (rest.dropWhile isValueCode)).length) := by
    rwa [hclosing, hmaximal.text]
  have hold := KeyMatch.of_parts hkey.accepted hmatch.marker hboundary hempty hquote hne hvalued
    (by rw [hclosing])
  rw [hclosing, hmaximal.text] at hold
  exact ⟨_, _, _, hold⟩

theorem selfReplaced_of_not_key
    (hcodes : ∀ code ∈ codes.head?, ¬ isKeyCode code = true) :
    SelfReplaced (keyValueSecretPattern isWord) redactedKeyValue previous codes := by
  intro texts left hmatch
  obtain ⟨key, before, mark, after, quote, value, closing, -, hkey⟩ :=
    match?_keyValueSecretPattern.mp hmatch
  obtain ⟨follows, hmaximal, -⟩ := hkey.text
  cases hword : key with
  | nil => exact absurd hword hkey.key_ne
  | cons first others =>
      refine absurd (hmaximal.accepted first (by simp [hword])) (hcodes first ?_)
      rw [← hmaximal.text, hword]
      rfl

theorem flatten_keyMatch_ne_nil : ∀ previous codes texts left,
    match? (keyValueSecretPattern isWord) previous codes = some (texts, left) →
      texts.flatten ≠ [] := by
  intro previous codes texts left hmatch
  obtain ⟨key, before, mark, after, quote, value, closing, rfl, hkey⟩ :=
    match?_keyValueSecretPattern.mp hmatch
  simp

/-- No key begins inside of a mask: a bracket follows its letters. -/
theorem selfReplaced_mask {taken others rest : Str} {code : Nat}
    (htext : taken ++ code :: others = redactedSecret) :
    SelfReplaced (keyValueSecretPattern isWord) redactedKeyValue previous
      (code :: others ++ rest) := by
  have hletters : ∀ count < 9, 0 < count → ∃ letters, redactedSecret.drop count = letters ++ [93] ∧
      ∀ letter ∈ letters, isKeyCode letter = true := by
    intro count hcount hpositive
    refine ⟨(redactedSecret.drop count).dropLast, ?_⟩
    revert count
    decide
  have hlength : taken.length + (others.length + 1) = 10 := by
    have hsame := congrArg List.length htext
    rwa [List.length_append, List.length_cons] at hsame
  have hdrop : code :: others = redactedSecret.drop taken.length := by
    rw [← htext, List.drop_left]
  by_cases hinner : 0 < taken.length ∧ taken.length < 9
  · obtain ⟨letters, hmask, hkeys⟩ := hletters taken.length hinner.2 hinner.1
    intro texts left hmatch
    obtain ⟨key, before, mark, after, quote, value, closing, -, hkey⟩ :=
      match?_keyValueSecretPattern.mp hmatch
    obtain ⟨follows, hmaximal, hseparated⟩ := hkey.text
    have hletters : Maximal isKeyCode (code :: others ++ rest) letters (93 :: rest) := by
      refine ⟨by rw [hdrop, hmask]; simp, hkeys, ?_⟩
      rintro other hother
      cases hother
      decide
    obtain ⟨-, hfollows⟩ := maximal_iff.mp hmaximal
    obtain ⟨-, hbracket⟩ := maximal_iff.mp hletters
    have htext := hseparated.text
    rw [hfollows, ← hbracket] at htext
    have hmember : 93 ∈ before ++ mark :: after := by
      cases before with
      | nil =>
          obtain ⟨rfl, -⟩ := List.cons.inj htext
          simp
      | cons head before =>
          obtain ⟨rfl, -⟩ := List.cons.inj htext
          simp
    simp only [List.mem_append, List.mem_cons] at hmember
    rcases hmember with hmember | hmember | hmember
    · exact absurd (hseparated.before 93 hmember) (by decide)
    · have hmark := hseparated.mark
      rw [← hmember] at hmark
      exact absurd hmark (by decide)
    · exact absurd (hseparated.after.accepted 93 hmember) (by decide)
  · refine selfReplaced_of_not_key fun other hother => ?_
    cases hother
    have hends : taken.length = 0 ∨ taken.length = 9 := by omega
    have hbracket : code = 91 ∨ code = 93 := by
      rcases hends with hzero | hnine
      · rw [hzero, List.drop_zero, redactedSecret_eq] at hdrop
        exact Or.inl (List.cons.inj hdrop).1
      · rw [hnine] at hdrop
        exact Or.inr (List.cons.inj (hdrop.trans (by decide : _ = [93]))).1
    rcases hbracket with rfl | rfl <;> decide

/-- A part of a key with a masked value after it. -/
theorem KeyMatch.selfReplaced_part
    (hmatch : KeyMatch isWord previous codes key before mark after quote value closing left)
    {part result : Str} (hpart : ∀ code ∈ part, isKeyCode code = true)
    (hstop : Maximal isValueCode (redactedSecret ++ (closing ++ result)) redactedSecret
      (closing ++ result)) (hclosing : leadingQuote (closing ++ result) = closing) :
    SelfReplaced (keyValueSecretPattern isWord) redactedKeyValue previous'
      (part ++ ((before ++ mark :: after) ++ quote) ++
        (redactedSecret ++ (closing ++ result))) := by
  obtain ⟨follows, -, hseparated⟩ := hmatch.text
  have hempty : Separated (before ++ mark :: (after ++ [])) before mark after [] :=
    hseparated.of_follows (by simp)
  have hquote := leadingQuote_cases (quote ++ (value ++ (closing ++ left)))
  rw [hmatch.opening] at hquote
  intro texts left' hother
  obtain ⟨key', before', mark', after', quote', value', closing', rfl, hkey⟩ :=
    match?_keyValueSecretPattern.mp hother
  obtain ⟨follows', hmaximal, -⟩ := hkey.text
  have hwhole : Maximal isKeyCode (part ++ ((before ++ mark :: after) ++ quote) ++
      (redactedSecret ++ (closing ++ result))) part
        (before ++ mark :: (after ++ (quote ++ (redactedSecret ++ (closing ++ result))))) := by
    refine ⟨by simp, hpart, ?_⟩
    intro code hcode
    refine (hseparated.no_bracket code ?_).2.2
    cases before with
    | nil =>
        cases hcode
        simp
    | cons head before =>
        cases hcode
        simp
  have hsame : part = key' :=
    (maximal_iff.mp hwhole).1.trans (maximal_iff.mp hmaximal).1.symm
  subst hsame
  have hboundary := hkey.boundary
  rw [List.append_assoc, head?_of_ne_nil hkey.key_ne] at hboundary
  have hmask := hkey.unique (KeyMatch.of_parts hpart hkey.marker hboundary hempty hquote
    redactedSecret_ne_nil hstop hclosing)
  rw [hmask]
  simp [redactedKeyValue]

theorem not_isKeyCode_of_isQuoteCode {code : Nat} (hcode : isQuoteCode code = true) :
    ¬ isKeyCode code = true := by
  rw [isQuoteCode_iff] at hcode
  rw [isKeyCode_iff, isAlphanumericCode_iff]
  omega

/-- Behind a key no other one begins before its value. -/
theorem KeyMatch.selfReplaced_outside
    (hmatch : KeyMatch isWord previous codes key before mark after quote value closing left)
    {part others rest : Str} {code : Nat}
    (hpart : (before ++ mark :: after) ++ quote = part ++ code :: others) :
    SelfReplaced (keyValueSecretPattern isWord) redactedKeyValue previous'
      (code :: others ++ rest) := by
  obtain ⟨follows, -, hseparated⟩ := hmatch.text
  refine selfReplaced_of_not_key fun other hother => ?_
  cases hother
  have hmem : code ∈ (before ++ mark :: after) ++ quote := by
    rw [hpart]
    exact List.mem_append_right _ List.mem_cons_self
  rcases List.mem_append.mp hmem with hmem | hmem
  · exact (hseparated.no_bracket code hmem).2.2
  · exact not_isKeyCode_of_isQuoteCode (hmatch.quotes code (List.mem_append_left _ hmem))

/-- The places of a key with a masked value. -/
theorem KeyMatch.keysMasked
    (hmatch : KeyMatch isWord previous codes key before mark after quote value closing left)
    {result : Str} (hstop : Maximal isValueCode (redactedSecret ++ (closing ++ result))
      redactedSecret (closing ++ result)) (hclosing : leadingQuote (closing ++ result) = closing)
    (hrest : ∀ before', KeysMasked isWord (lastOr before' closing) result) :
    KeysMasked isWord previous' (key ++ ((before ++ mark :: after) ++ quote) ++
      (redactedSecret ++ (closing ++ result))) := by
  obtain ⟨follows, hmaximal, -⟩ := hmatch.text
  refine everywhere_append.mpr
    ⟨?_, everywhere_append.mpr ⟨?_, everywhere_append.mpr ⟨?_, hrest _⟩⟩⟩
  · intro taken code others hfront
    rcases List.append_eq_append_iff.mp hfront with ⟨part, hpart, hinner⟩ | ⟨part, -, hinner⟩
    · by_cases hempty : part = []
      · subst hempty
        exact hmatch.selfReplaced_outside (show _ = [] ++ code :: others from hinner.symm)
      · rw [hinner]
        refine hmatch.selfReplaced_part (fun code hcode => ?_) hstop hclosing
        refine hmaximal.accepted code ?_
        rw [hpart]
        exact List.mem_append_right _ hcode
    · exact hmatch.selfReplaced_outside hinner
  · exact fun taken code others hpart => selfReplaced_mask hpart
  · intro taken code others hpart
    refine selfReplaced_of_not_key fun other hother => ?_
    cases hother
    refine not_isKeyCode_of_isQuoteCode (hmatch.quotes code ?_)
    rw [← hpart]
    simp

/-- The closing quote, if there is one, stays. -/
theorem KeyMatch.closed
    (hmatch : KeyMatch isWord previous codes key before mark after quote value closing left) :
    closing = [] ∨ ∃ code, isQuoteCode code = true ∧ closing = [code] := by
  rw [← hmatch.closing]
  exact leadingQuote_cases _

theorem KeyMatch.ends
    (hmatch : KeyMatch isWord previous codes key before mark after quote value closing left) :
    ∃ init last, key ++ ((before ++ mark :: after) ++ quote) = init ++ [last] ∧
      opensValue last = true := by
  obtain ⟨follows, -, hseparated⟩ := hmatch.text
  have hquote := leadingQuote_cases (quote ++ (value ++ (closing ++ left)))
  rw [hmatch.opening] at hquote
  rcases hquote with rfl | ⟨code, hcode, rfl⟩
  · obtain ⟨init, last, hlast, hopens⟩ := hseparated.opens
    exact ⟨key ++ init, last, by rw [hlast]; simp, by simp [opensValue, hopens]⟩
  · exact ⟨key ++ (before ++ mark :: after), code, by simp, by simp [opensValue, hcode]⟩

/-- A key with a masked value is the key with its value masked. -/
theorem KeyMatch.masked
    (hmatch : KeyMatch isWord previous codes key before mark after quote value closing left)
    {result : Str} (hmasked : ∀ opened, Masked opensValue isValueCode opened left result) :
    Masked opensValue isValueCode opened codes (key ++ ((before ++ mark :: after) ++ quote) ++
      (redactedSecret ++ (closing ++ result))) := by
  have hrest : Masked opensValue isValueCode false (closing ++ left) (closing ++ result) := by
    rcases hmatch.closed with rfl | ⟨code, hcode, rfl⟩
    · exact hmasked false
    · exact .keep (hmasked _)
  obtain ⟨init, last, hlast, hopens⟩ := hmatch.ends
  have hvalue : Masked opensValue isValueCode (opensValue last) (value ++ (closing ++ left))
      (redactedSecret ++ (closing ++ result)) := by
    rw [hopens]
    exact .mask hmatch.value_ne hmatch.maximal hrest
  have hwhole : Masked opensValue isValueCode opened
      (init ++ last :: (value ++ (closing ++ left)))
        (init ++ last :: (redactedSecret ++ (closing ++ result))) := hvalue.append
  rw [hmatch.codes_eq, hlast, List.append_assoc, List.append_assoc]
  exact hwhole

/-- What follows a masked value ends it. -/
theorem KeyMatch.stop
    (hmatch : KeyMatch isWord previous codes key before mark after quote value closing left)
    {result : Str} (hmasked : Masked opensValue isValueCode false left result) :
    (∀ code ∈ (closing ++ result).head?, ¬ isValueCode code = true) ∧
      leadingQuote (closing ++ result) = closing := by
  rcases hmatch.closed with rfl | ⟨code, hcode, rfl⟩
  · refine ⟨hmasked.stop hmatch.maximal.stop,
      leadingQuote_of_not_quote (hmasked.stop fun code hcode hquote => ?_)⟩
    have hnone := hmatch.closing
    cases left with
    | nil => cases hcode
    | cons head rest =>
        cases hcode
        simp [leadingQuote, hquote] at hnone
  · constructor
    · rintro other hother
      cases hother
      rw [isValueCode_iff]
      simp [hcode]
    · simp [leadingQuote, hcode]

/-- The first character of a match is part of a value. -/
theorem KeyMatch.head
    (hmatch : KeyMatch isWord previous codes key before mark after quote value closing left) :
    ∃ code ∈ codes.head?, isValueCode code = true := by
  obtain ⟨follows, hmaximal, -⟩ := hmatch.text
  cases hword : key with
  | nil => exact absurd hword hmatch.key_ne
  | cons first others =>
      refine ⟨first, ?_, isValueCode_of_isKeyCode (hmaximal.accepted first (by simp [hword]))⟩
      rw [← hmaximal.text, hword]
      rfl

/-- After the third pass all keys are masked. -/
theorem redactKeyValue_masks (text : Str) :
    Masked opensValue isValueCode false text (redactKeyValue isWord text) ∧
      KeysMasked isWord none (redactKeyValue isWord text) := by
  suffices hpass : ∀ previous codes, (fun previous codes result =>
      (∀ opened, Masked opensValue isValueCode opened codes result) ∧
        ∀ previous', (previous' = previous ∨ ∀ code ∈ codes.head?, ¬ isValueCode code = true) →
          KeysMasked isWord previous' result) previous codes
      (substituteFrom (keyValueSecretPattern isWord) redactedKeyValue 0 previous codes) from
    ⟨(hpass none text).1 false, (hpass none text).2 none (Or.inl rfl)⟩
  refine substituteFrom_induction (motive := fun previous codes result =>
      (∀ opened, Masked opensValue isValueCode opened codes result) ∧
        ∀ previous', (previous' = previous ∨ ∀ code ∈ codes.head?, ¬ isValueCode code = true) →
          KeysMasked isWord previous' result) flatten_keyMatch_ne_nil ?_ ?_ ?_
  · exact fun previous => ⟨fun _ => .nil, fun previous' _ =>
      everywhere_nil.mpr (selfReplaced_of_not_key (by simp))⟩
  · rintro previous code rest hmatch ⟨hmasked, ih⟩
    refine ⟨fun _ => .keep (hmasked _), fun previous' hprevious =>
      everywhere_cons.mpr ⟨?_, ih _ (Or.inl rfl)⟩⟩
    intro texts left hresult
    obtain ⟨key, before, mark, after, quote, value, closing, rfl, hkey⟩ :=
      match?_keyValueSecretPattern.mp hresult
    have hbefore : previous' = previous := by
      rcases hprevious with hsame | hother
      · exact hsame
      · obtain ⟨first, hfirst, haccepted⟩ := hkey.head
        exact absurd haccepted (hother first hfirst)
    have hkept : Masked opensValue isValueCode false (code :: rest) (code :: _) :=
      .keep (hmasked _)
    rw [hbefore] at hkey
    obtain ⟨value', closing', left', hold⟩ := hkept.keyValue hkey
    rw [match?_keyValueSecretPattern.mpr ⟨key, before, mark, after, quote, value', closing', rfl,
      hold⟩] at hmatch
    cases hmatch
  · intro previous codes texts left hmatch hpassed
    obtain ⟨key, before, mark, after, quote, value, closing, rfl, hkey⟩ :=
      match?_keyValueSecretPattern.mp hmatch
    generalize substituteFrom (keyValueSecretPattern isWord) redactedKeyValue 0
      (lastOr previous [[], key, before ++ mark :: after, quote, value, closing].flatten) left =
        result at hpassed ⊢
    obtain ⟨hmasked, ih⟩ := hpassed
    obtain ⟨hstop, hclosing⟩ := hkey.stop (hmasked false)
    have htext : redactedKeyValue [[], key, before ++ mark :: after, quote, value, closing] ++
        result = key ++ ((before ++ mark :: after) ++ quote) ++
          (redactedSecret ++ (closing ++ result)) := by
      simp only [redactedKeyValue, List.append_assoc]
    rw [htext]
    refine ⟨fun opened => hkey.masked hmasked, fun previous' _ =>
      hkey.keysMasked (maximal_mask mask_accepted.2 hstop) hclosing fun before' => ih _ ?_⟩
    rcases hkey.closed with rfl | ⟨code, hcode, rfl⟩
    · exact Or.inr hkey.maximal.stop
    · refine Or.inl ?_
      have hflat : [[], key, before ++ mark :: after, quote, value, [code]].flatten =
          (key ++ ((before ++ mark :: after) ++ (quote ++ value))) ++ [code] := by
        simp only [List.flatten_cons, List.flatten_nil, List.nil_append, List.append_nil,
          List.append_assoc]
      rw [hflat, lastOr_append]
      simp [lastOr]

end KeyValues

section Text

variable {isWord : Nat → Bool}

/-- A text without credentials and with masked values stays as it is. -/
theorem redactSecretText_eq_self {text : Str} (hbearer : NoBearer isWord none text)
    (hheaders : HeadersMasked none text) (hkeys : KeysMasked isWord none text) :
    redactSecretText isWord text = text := by
  have hfirst : redactBearer isWord text = text :=
    substituteFrom_eq_self flatten_bearerMatch_ne_nil fun taken left htext =>
      selfReplaced_of_none (hbearer taken left htext)
  have hsecond : redactAuthorization text = text :=
    substituteFrom_eq_self flatten_authorizationMatch_ne_nil hheaders
  have hthird : redactKeyValue isWord text = text :=
    substituteFrom_eq_self flatten_keyMatch_ne_nil hkeys
  rw [redactSecretText, hfirst, hsecond, hthird]

/-- What the three passes leave behind. -/
theorem redactSecretText_masks (text : Str) : NoBearer isWord none (redactSecretText isWord text) ∧
    HeadersMasked none (redactSecretText isWord text) ∧
      KeysMasked isWord none (redactSecretText isWord text) := by
  have hbearer := @noBearer_redactBearer isWord text
  obtain ⟨hheaders, hheadersMasked⟩ := redactAuthorization_masks (redactBearer isWord text)
  obtain ⟨hkeys, hkeysMasked⟩ :=
    @redactKeyValue_masks isWord (redactAuthorization (redactBearer isWord text))
  have haccepts : ∀ code, isAlphanumericCode code = true → isValueCode code = true := by
    intro code hcode
    refine isValueCode_of_isKeyCode ?_
    rw [isKeyCode_iff]
    exact Or.inl hcode
  have hmask : ∀ code ∈ redactedSecret, opensValue code = false ∧ isValueCode code = true := by
    decide
  have hnoBearer := hheaders.noBearer
    (fun code hcode => isHeaderCode_of_isValueCode (haccepts code hcode)) (Or.inl rfl) hbearer
  exact ⟨hkeys.noBearer haccepts (Or.inl rfl) hnoBearer,
    hkeys.headersMasked (fun _ => isHeaderCode_of_isValueCode) hmask hheadersMasked, hkeysMasked⟩

/-- Redacting a text again changes nothing. -/
theorem redactSecretText_idempotent (text : Str) :
    redactSecretText isWord (redactSecretText isWord text) = redactSecretText isWord text := by
  obtain ⟨hbearer, hheaders, hkeys⟩ := @redactSecretText_masks isWord text
  exact redactSecretText_eq_self hbearer hheaders hkeys

end Text

end MuxivoConsole
