/-
The shapes in which a credential stands in the free text of a log, and which of them the redaction
hides.
-/
import MuxivoConsole.Guarantees.RedactionDisclosure

namespace MuxivoConsole

open Text Regex

/-- A sensitive key, the scheme of a header and the text around them. -/
structure Occasion (alphabet : Alphabet) where
  before : Str
  after : Str
  key : Str
  scheme : Str
  before_surrounding : IsSurrounding alphabet before
  after_surrounding : IsSurrounding alphabet after
  key_codes : ∀ code ∈ key,
    alphabet.isLetter code = true ∨ (48 ≤ code ∧ code ≤ 57) ∨ code = 95 ∨ code = 45
  sensitive : isSensitiveKey alphabet.lower key = true
  scheme_token : IsToken scheme

/-- `k=v`, `k: v`, `k="v"`, `"k": "v"`, `?k=v&x=1` and `Authorization: s v` -/
inductive CredentialShape where
  | assignment
  | colon
  | quoted
  | jsonMember
  | query
  | header
  deriving DecidableEq, Repr

/-- The text that has a value in a shape. -/
def Occasion.text {alphabet : Alphabet} (occasion : Occasion alphabet) (shape : CredentialShape)
    (value : Str) : Str :=
  let key := occasion.key
  occasion.before ++ match shape with
    | .assignment => key ++ 61 :: (value ++ occasion.after)
    | .colon => key ++ 58 :: 32 :: (value ++ occasion.after)
    | .quoted => key ++ 61 :: 34 :: (value ++ 34 :: occasion.after)
    | .jsonMember => 34 :: (key ++ 34 :: 58 :: 32 :: 34 :: (value ++ 34 :: occasion.after))
    | .query => 63 :: (key ++ 61 :: (value ++ (codesOf "&x=1" ++ occasion.after)))
    | .header =>
        codesOf "Authorization" ++ 58 :: 32 :: (occasion.scheme ++ 32 :: (value ++ occasion.after))

/-- The redaction gives the same output for all values. -/
def Occasion.Hides {alphabet : Alphabet} (occasion : Occasion alphabet) (shape : CredentialShape) :
    Prop :=
  ∀ value other, IsToken value → IsToken other →
    redactSecretText alphabet.isWord (occasion.text shape value) =
      redactSecretText alphabet.isWord (occasion.text shape other)

/-- The value goes with a key that the first pass takes for a credential, or it stands behind a
name that the later passes look for. A JSON member is never among them, and a header only if its
scheme ends with the word `bearer`. -/
def Occasion.Covers {alphabet : Alphabet} (occasion : Occasion alphabet) :
    CredentialShape → Prop
  | .assignment => Eaten occasion.before occasion.key ∨
      (Recognized alphabet (occasion.before ++ occasion.key) ∧ ¬ Trails occasion.after)
  | .colon => ¬ Eaten occasion.before occasion.key ∧
      Recognized alphabet (occasion.before ++ occasion.key) ∧ ¬ Trails occasion.after
  | .quoted => ¬ Eaten occasion.before occasion.key ∧
      Recognized alphabet (occasion.before ++ occasion.key)
  | .jsonMember => False
  | .query => Recognized alphabet (63 :: occasion.key)
  | .header => ∃ init word, occasion.scheme = init ++ word ∧
      IsBearer alphabet.isWord (lastOr (some 32) init) word

section Names

variable {alphabet : Alphabet} {before key : Str}

theorem Occasion.isKey (occasion : Occasion alphabet) : IsKey occasion.key := by
  refine ⟨fun hnil => ?_, fun code hcode => ?_, fun code hcode => ?_⟩
  · have hsensitive := occasion.sensitive
    rw [hnil, isSensitiveKey, alphabet.lower_nil] at hsensitive
    exact absurd hsensitive (by decide)
  · rcases occasion.key_codes code hcode with hletter | hother
    · exact Alphabet.not_space_of_letter hletter
    · rw [isSpaceCode_iff]
      omega
  · rcases occasion.key_codes code hcode with hletter | hother
    · exact Alphabet.not_separator_of_letter hletter
    · rw [isSeparatorCode_iff]
      omega

/-- A key between characters that are part of no word and no separator. -/
theorem IsKey.append {first last : Str} (hkey : IsKey key) (hfirst : Solid first)
    (hfirst' : Unseparated first) (hlast : Solid last) (hlast' : Unseparated last) :
    IsKey (first ++ (key ++ last)) where
  ne_nil := by simp [hkey.ne_nil]
  solid := by
    intro code hcode
    simp only [List.mem_append] at hcode
    rcases hcode with hcode | hcode | hcode
    · exact hfirst code hcode
    · exact hkey.solid code hcode
    · exact hlast code hcode
  unseparated := unseparated_append hfirst' (unseparated_append hkey.unseparated hlast')

/-- What the first pass makes of a name and of a separator that is part of no credential. -/
theorem front_of_name {code : Nat} (hbefore : IsSurrounding alphabet before) (hkey : IsKey key)
    (hcode : ¬ isBearerCode code = true) (hspace : ¬ isSpaceCode code = true) :
    ∃ front, Unseparated front ∧ EndsSolid front ∧
      (Recognized alphabet front ↔
        ¬ Eaten before key ∧ Recognized alphabet (before ++ key)) ∧
      ∀ rest, bearerFrom alphabet.isWord none (before ++ (key ++ code :: rest)) =
        front ++ code :: bearerFrom alphabet.isWord (some code) rest := by
  have hletter : ¬ isAlphanumericCode code = true := fun hletter =>
    hcode (isBearerCode_iff.mpr (Or.inl hletter))
  by_cases heaten : Eaten before key
  · obtain ⟨front, hfront, hsolid, hname, hscan⟩ := front_of_eaten hbefore hkey heaten
    refine ⟨front, hfront, hsolid, iff_of_false hname fun hboth => hboth.1 heaten, fun rest => ?_⟩
    have hkept := @bearerFrom_solid_cons alphabet.isWord none [] rest code (by simp [Solid]) hletter
      hspace
    rw [hscan, List.dropWhile_cons_of_neg hcode]
    exact congrArg _ hkept
  · obtain ⟨front, hfront, hsolid, hname, hscan⟩ := front_of_not_eaten hbefore hkey heaten
    exact ⟨front, hfront, hsolid, by simp [hname, heaten],
      fun rest => hscan code rest hletter hspace⟩

end Names

section Shapes

variable {alphabet : Alphabet} {value : Str}

theorem redactSecretText_eq (isWord : Nat → Bool) (text : Str) :
    redactSecretText isWord text = laterPasses isWord (bearerFrom isWord none text) := rfl

/-- A value that goes with the credential in front of it. -/
theorem dropWhile_value (htoken : IsToken value) (rest : Str) :
    (value ++ rest).dropWhile isBearerCode = rest.dropWhile isBearerCode :=
  List.dropWhile_append_of_pos fun code hcode => bearer_of_token (htoken.2 code hcode)

theorem Occasion.hides_assignment (occasion : Occasion alphabet) :
    occasion.Hides .assignment ↔ occasion.Covers .assignment := by
  by_cases heaten : Eaten occasion.before occasion.key
  · refine iff_of_true (fun value other hvalue hother => ?_) (Or.inl heaten)
    obtain ⟨front, -, -, -, hscan⟩ :=
      front_of_eaten occasion.before_surrounding occasion.isKey heaten
    have hrest (value : Str) (htoken : IsToken value) :
        (61 :: (value ++ occasion.after)).dropWhile isBearerCode =
          occasion.after.dropWhile isBearerCode := by
      rw [List.dropWhile_cons_of_pos (by decide), dropWhile_value htoken]
    simp only [Occasion.text, redactSecretText_eq, hscan, hrest value hvalue, hrest other hother]
  · obtain ⟨front, hfront, hsolid, hname, hscan⟩ :=
      front_of_not_eaten occasion.before_surrounding occasion.isKey heaten
    have hsame := @same_value_iff alphabet front [] occasion.after (some 61) 61
      (fun value => bearerFrom alphabet.isWord none (occasion.text .assignment value))
      occasion.after_surrounding hfront hsolid (by decide) (by simp)
      fun value => hscan 61 _ (by decide) (by decide)
    rw [hname] at hsame
    refine hsame.trans ?_
    simp [Occasion.Covers, heaten]

theorem Occasion.hides_colon (occasion : Occasion alphabet) :
    occasion.Hides .colon ↔ occasion.Covers .colon := by
  obtain ⟨front, hfront, hsolid, hname, hscan⟩ := @front_of_name alphabet _ _ 58
    occasion.before_surrounding occasion.isKey (by decide) (by decide)
  have hsame := @same_value_iff alphabet front [32] occasion.after (some 32) 58
    (fun value => bearerFrom alphabet.isWord none (occasion.text .colon value))
    occasion.after_surrounding hfront hsolid (by decide) (by decide) fun value => by
      rw [Occasion.text, hscan, bearerFrom_space (by decide)]
      rfl
  rw [hname] at hsame
  refine hsame.trans ?_
  rw [Occasion.Covers, and_assoc]

/-- A quoted value stays in the first pass. -/
theorem bearerFrom_quoted {previous : Option Nat} {after : Str} (hsolid : Solid value) :
    bearerFrom alphabet.isWord previous (34 :: (value ++ 34 :: after)) =
      34 :: (value ++ 34 :: bearerFrom alphabet.isWord (some 34) after) := by
  have hquoted : Solid (34 :: value) := by
    intro code hcode
    rcases List.mem_cons.mp hcode with rfl | hcode
    · decide
    · exact hsolid code hcode
  have hkept := @bearerFrom_solid_cons alphabet.isWord previous (34 :: value) after 34 hquoted
    (by decide) (by decide)
  exact hkept

theorem unseparated_cons {code : Nat} {codes : Str} (hcode : ¬ isSeparatorCode code = true)
    (hcodes : Unseparated codes) : Unseparated (code :: codes) := by
  intro other hother
  rcases List.mem_cons.mp hother with rfl | hother
  · exact hcode
  · exact hcodes other hother

theorem unseparated_quoted {rest : Str} (hvalue : Unseparated value) (hrest : Unseparated rest) :
    Unseparated (34 :: (value ++ 34 :: rest)) :=
  unseparated_cons (by decide) (unseparated_append hvalue (unseparated_cons (by decide) hrest))

/-- A quoted value behind a name is masked. -/
theorem laterPasses_quoted {front rest other : Str} (hfront : Unseparated front)
    (hsolid : EndsSolid front) (hname : Recognized alphabet front) (hvalue : IsToken value)
    (hother : IsToken other) (hrest : Unseparated rest) :
    laterPasses alphabet.isWord (front ++ 61 :: 34 :: (value ++ 34 :: rest)) =
      laterPasses alphabet.isWord (front ++ 61 :: 34 :: (other ++ 34 :: rest)) := by
  by_cases hheader : EndsHeader front
  · obtain ⟨init, word, hsplit, hletters⟩ := hheader
    have hmasked (value : Str) (htoken : IsToken value) :
        headersFrom (front ++ 61 :: 34 :: (value ++ 34 :: rest)) =
          front ++ 61 :: (redactedSecret ++ headersFrom (rest.dropWhile isHeaderCode)) := by
      have hheads : ∀ code ∈ value, isHeaderCode code = true := fun code hcode =>
        isHeaderCode_of_isValueCode (value_of_token (htoken.2 code hcode)).1
      have hspaces : (34 :: (value ++ 34 :: rest)).dropWhile isSpaceCode =
          34 :: (value ++ 34 :: rest) := List.dropWhile_cons_of_neg (by decide)
      have hdrop : (34 :: (value ++ 34 :: rest)).dropWhile isHeaderCode =
          rest.dropWhile isHeaderCode := by
        rw [List.dropWhile_cons_of_pos (by decide), List.dropWhile_append_of_pos hheads,
          List.dropWhile_cons_of_pos (by decide)]
      have hheaders := @headersFrom_header init word (34 :: (value ++ 34 :: rest)) 61
        (hsplit ▸ hfront) (by decide) hletters (by
          rw [hspaces, List.takeWhile_cons_of_pos (by decide)]
          exact List.cons_ne_nil _ _)
      rw [hspaces, hdrop, List.takeWhile_cons_of_neg (by decide), ← hsplit] at hheaders
      exact hheaders
    rw [laterPasses, laterPasses, hmasked value hvalue, hmasked other hother]
  · have hkey := hname.resolve_left hheader
    have hmasked (value : Str) (htoken : IsToken value) :
        laterPasses alphabet.isWord (front ++ 61 :: 34 :: (value ++ 34 :: rest)) =
          front ++ 61 :: 34 :: (redactedSecret ++ 34 :: rest) := by
      have hvalues : Maximal isValueCode (value ++ ([34] ++ rest)) value ([34] ++ rest) := by
        refine ⟨rfl, fun code hcode => (value_of_token (htoken.2 code hcode)).1, ?_⟩
        rintro code hcode
        cases hcode
        decide
      have hkeys := @keysFrom_key alphabet.isWord none front 61 [] [34] value [34] rest hfront
        hsolid (by decide) hkey (by simp) (Or.inr ⟨34, by decide, rfl⟩) htoken.1 hvalues
        (by simp [leadingQuote, isQuoteCode])
      rw [keysFrom_unseparated hrest] at hkeys
      rw [laterPasses, headersFrom_separator hfront hsolid (by decide) hheader,
        headersFrom_unseparated (unseparated_quoted (unseparated_of_token htoken) hrest)]
      exact hkeys
    rw [hmasked value hvalue, hmasked other hother]

theorem Occasion.hides_quoted (occasion : Occasion alphabet) :
    occasion.Hides .quoted ↔ occasion.Covers .quoted := by
  have hrest : Unseparated (bearerFrom alphabet.isWord (some 34) occasion.after) :=
    unseparated_bearerFrom (unseparated_surrounding occasion.after_surrounding)
  have htoken (code : Nat) (hcode : code = 97 ∨ code = 99) : IsToken [code] := by
    rcases hcode with rfl | rfl <;> decide
  by_cases heaten : Eaten occasion.before occasion.key
  · obtain ⟨front, hfront, -, -, hscan⟩ :=
      front_of_eaten occasion.before_surrounding occasion.isKey heaten
    refine iff_of_false (@not_same_of_kept _ (front ++ [34])
      (fun _ => 34 :: bearerFrom alphabet.isWord (some 34) occasion.after) fun code hcode => ?_)
      fun hboth => hboth.1 heaten
    have hkept := unseparated_append hfront
      (unseparated_quoted (unseparated_of_token (htoken code hcode)) hrest)
    rw [redactSecretText_eq, Occasion.text, hscan, List.dropWhile_cons_of_pos (by decide),
      List.dropWhile_cons_of_neg (by decide), bearerFrom_quoted (htoken code hcode).solid,
      laterPasses, headersFrom_unseparated hkept, keysFrom_unseparated hkept]
    simp
  · obtain ⟨front, hfront, hsolid, hname, hscan⟩ :=
      front_of_not_eaten occasion.before_surrounding occasion.isKey heaten
    have hfirst (value : Str) (htoken : IsToken value) :
        bearerFrom alphabet.isWord none (occasion.text .quoted value) =
          front ++ 61 :: 34 :: (value ++ 34 ::
            bearerFrom alphabet.isWord (some 34) occasion.after) := by
      rw [Occasion.text, hscan 61 _ (by decide) (by decide), bearerFrom_quoted htoken.solid]
    by_cases hrecognized : Recognized alphabet (occasion.before ++ occasion.key)
    · refine iff_of_true (fun value other hvalue hother => ?_) ⟨heaten, hrecognized⟩
      rw [redactSecretText_eq, redactSecretText_eq, hfirst value hvalue, hfirst other hother]
      exact laterPasses_quoted hfront hsolid (hname.mpr hrecognized) hvalue hother hrest
    · refine iff_of_false (@not_same_of_kept _ (front ++ [61, 34])
        (fun _ => 34 :: bearerFrom alphabet.isWord (some 34) occasion.after) fun code hcode => ?_)
        fun hboth => hrecognized hboth.2
      rw [redactSecretText_eq, hfirst _ (htoken code hcode), laterPasses,
        passes_unrecognized hfront hsolid (by decide) (fun hfound => hrecognized (hname.mp hfound))
          (unseparated_quoted (unseparated_of_token (htoken code hcode)) hrest)]
      simp

/-- The quote behind the key of a member keeps the later passes from finding it. -/
theorem Occasion.not_hides_jsonMember (occasion : Occasion alphabet) :
    ¬ occasion.Hides .jsonMember := by
  have hrest : Unseparated (bearerFrom alphabet.isWord (some 34) occasion.after) :=
    unseparated_bearerFrom (unseparated_surrounding occasion.after_surrounding)
  have hquoted : Solid [34] ∧ Unseparated [34] := by
    unfold Solid Unseparated
    decide
  have hkey := occasion.isKey.append hquoted.1 hquoted.2 hquoted.1 hquoted.2
  obtain ⟨front, hfront, hsolid, hname, hscan⟩ := @front_of_name alphabet _ _ 58
    occasion.before_surrounding hkey (by decide) (by decide)
  have hunnamed : ¬ Recognized alphabet front := by
    rw [hname]
    rintro ⟨-, hfound⟩
    have hword : alphabet.isWord 34 = false := by
      rw [alphabet.word_ascii 34 (by decide)]
      decide
    have htext : occasion.before ++ ([34] ++ (occasion.key ++ [34])) =
        (occasion.before ++ 34 :: occasion.key) ++ 34 :: [] := by simp
    rw [htext, recognized_append (by decide) hword] at hfound
    exact not_recognized_nil hfound
  refine @not_same_of_kept _ (front ++ [58, 32, 34])
    (fun _ => 34 :: bearerFrom alphabet.isWord (some 34) occasion.after) fun code hcode => ?_
  have htoken : IsToken [code] := by
    rcases hcode with rfl | rfl <;> decide
  have htext : occasion.text .jsonMember [code] = occasion.before ++
      (([34] ++ (occasion.key ++ [34])) ++ 58 :: 32 :: 34 :: ([code] ++ 34 :: occasion.after)) := by
    simp [Occasion.text]
  rw [redactSecretText_eq, htext, hscan, bearerFrom_space (by decide),
    bearerFrom_quoted htoken.solid, laterPasses,
    passes_unrecognized hfront hsolid (by decide) hunnamed (unseparated_cons (by decide)
      (unseparated_quoted (unseparated_of_token htoken) hrest))]
  simp

/-- What comes after the value of a query: `&x` and `=1`. -/
theorem bearerFrom_query {previous : Option Nat} {after : Str} (hsolid : Solid value) :
    bearerFrom alphabet.isWord previous (value ++ (codesOf "&x=1" ++ after)) =
      value ++ 38 :: 120 :: 61 :: bearerFrom alphabet.isWord (some 61) (49 :: after) := by
  have hcodes : codesOf "&x=1" ++ after = 38 :: ([120] ++ 61 :: 49 :: after) := by
    simp only [show codesOf "&x=1" = [38, 120, 61, 49] by decide]
    rfl
  have hletter : Solid [120] := by
    unfold Solid
    decide
  rw [hcodes, bearerFrom_solid_cons hsolid (by decide) (by decide),
    bearerFrom_solid_cons hletter (by decide) (by decide)]
  rfl

/-- The markers have five letters at least. -/
theorem not_endsKey_of_length {isWord : Nat → Bool} {previous : Option Nat} {codes : Str}
    (hshort : codes.length < 5) : ¬ EndsKey isWord previous codes := by
  rintro ⟨init, key, htext, -, -, marker, hmarker, hinside⟩
  have hlong : ∀ marker ∈ ["password", "secret", "token"], 5 ≤ (codesOf marker).length := by
    decide
  have hle := hinside.length_le
  rw [List.length_map] at hle
  rw [htext, List.length_append] at hshort
  have hfive := hlong marker hmarker
  omega

/-- The later passes find no name in `&x`. -/
theorem laterPasses_ampersand {previous : Option Nat} {rest : Str} (hrest : Unseparated rest) :
    keysFrom alphabet.isWord previous (38 :: 120 :: 61 :: rest) = 38 :: 120 :: 61 :: rest := by
  have hshort : Unseparated [38, 120] ∧ EndsSolid [38, 120] := by
    unfold Unseparated EndsSolid
    decide
  have hkept := @keysFrom_separator alphabet.isWord previous [38, 120] rest 61 hshort.1 hshort.2
    (by decide) (not_endsKey_of_length (by decide))
  rw [keysFrom_unseparated hrest] at hkept
  exact hkept

theorem headersFrom_ampersand {front rest : Str} (hfront : Unseparated front)
    (hrest : Unseparated rest) :
    headersFrom (front ++ 38 :: 120 :: 61 :: rest) = front ++ 38 :: 120 :: 61 :: rest := by
  have hshort : Unseparated [38, 120] := by
    unfold Unseparated
    decide
  have hkept := @headersFrom_separator (front ++ [38, 120]) rest 61
    (unseparated_append hfront hshort) (by
      rintro code hcode
      simp only [List.getLast?_append, List.getLast?_cons_cons, List.getLast?_singleton,
        Option.some_or, Option.mem_def, Option.some.injEq] at hcode
      rw [← hcode]
      decide) (by decide) (by
      rintro ⟨init, word, htext, hletters⟩
      have hlast := congrArg List.getLast? hletters
      have hne : word ≠ [] := by
        rintro rfl
        exact absurd hletters (by decide)
      have hsame := congrArg List.getLast? htext
      rw [List.getLast?_append_of_ne_nil _ hne, List.getLast?_append_of_ne_nil _ (by decide)]
        at hsame
      rw [List.getLast?_map, ← hsame] at hlast
      exact absurd hlast (by decide))
  rw [headersFrom_unseparated hrest] at hkept
  simpa using hkept

/-- The value of a query behind a name is masked. -/
theorem laterPasses_query {front rest other : Str} (hfront : Unseparated front)
    (hsolid : EndsSolid front) (hname : Recognized alphabet front) (hvalue : IsToken value)
    (hother : IsToken other) (hrest : Unseparated rest) :
    laterPasses alphabet.isWord (front ++ 61 :: (value ++ 38 :: 120 :: 61 :: rest)) =
      laterPasses alphabet.isWord (front ++ 61 :: (other ++ 38 :: 120 :: 61 :: rest)) := by
  by_cases hheader : EndsHeader front
  · obtain ⟨init, word, hsplit, hletters⟩ := hheader
    have hmasked (value : Str) (htoken : IsToken value) :
        headersFrom (front ++ 61 :: (value ++ 38 :: 120 :: 61 :: rest)) =
          front ++ 61 :: (redactedSecret ++ headersFrom (rest.dropWhile isHeaderCode)) := by
      have hheads : ∀ code ∈ value, isHeaderCode code = true := fun code hcode =>
        isHeaderCode_of_isValueCode (value_of_token (htoken.2 code hcode)).1
      obtain ⟨first, others, hparts⟩ := List.exists_cons_of_ne_nil htoken.1
      have hfirst : ¬ isSpaceCode first = true :=
        htoken.solid first (by rw [hparts]; exact List.mem_cons_self)
      have hspaces : (value ++ 38 :: 120 :: 61 :: rest).dropWhile isSpaceCode =
          value ++ 38 :: 120 :: 61 :: rest := by
        rw [hparts, List.cons_append, List.dropWhile_cons_of_neg hfirst]
      have hblanks : (value ++ 38 :: 120 :: 61 :: rest).takeWhile isSpaceCode = [] := by
        rw [hparts, List.cons_append, List.takeWhile_cons_of_neg hfirst]
      have hdrop : (value ++ 38 :: 120 :: 61 :: rest).dropWhile isHeaderCode =
          rest.dropWhile isHeaderCode := by
        rw [List.dropWhile_append_of_pos hheads, List.dropWhile_cons_of_pos (by decide),
          List.dropWhile_cons_of_pos (by decide), List.dropWhile_cons_of_pos (by decide)]
      have hheaders := @headersFrom_header init word (value ++ 38 :: 120 :: 61 :: rest) 61
        (hsplit ▸ hfront) (by decide) hletters (by
          rw [hspaces, List.takeWhile_append_of_pos hheads]
          simp [htoken.1])
      rw [hspaces, hdrop, hblanks, ← hsplit] at hheaders
      exact hheaders
    rw [laterPasses, laterPasses, hmasked value hvalue, hmasked other hother]
  · have hkey := hname.resolve_left hheader
    have hmasked (value : Str) (htoken : IsToken value) :
        laterPasses alphabet.isWord (front ++ 61 :: (value ++ 38 :: 120 :: 61 :: rest)) =
          front ++ 61 :: (redactedSecret ++ 38 :: 120 :: 61 :: rest) := by
      have hvalues : Maximal isValueCode (value ++ ([] ++ 38 :: 120 :: 61 :: rest)) value
          ([] ++ 38 :: 120 :: 61 :: rest) := by
        refine ⟨rfl, fun code hcode => (value_of_token (htoken.2 code hcode)).1, ?_⟩
        rintro code hcode
        cases hcode
        decide
      have hkeys := @keysFrom_key alphabet.isWord none front 61 [] [] value []
        (38 :: 120 :: 61 :: rest) hfront hsolid (by decide) hkey (by simp) (Or.inl rfl) htoken.1
        hvalues (by simp [leadingQuote, isQuoteCode])
      rw [laterPasses_ampersand hrest] at hkeys
      rw [laterPasses, headersFrom_separator hfront hsolid (by decide) hheader,
        headersFrom_ampersand (unseparated_of_token htoken) hrest]
      exact hkeys
    rw [hmasked value hvalue, hmasked other hother]

theorem Occasion.hides_query (occasion : Occasion alphabet) :
    occasion.Hides .query ↔ occasion.Covers .query := by
  have hrest : Unseparated (bearerFrom alphabet.isWord (some 61) (49 :: occasion.after)) :=
    unseparated_bearerFrom
      (unseparated_cons (by decide) (unseparated_surrounding occasion.after_surrounding))
  have hmark : Solid [63] ∧ Unseparated [63] := by
    unfold Solid Unseparated
    decide
  have hkey := @IsKey.append occasion.key [63] [] occasion.isKey hmark.1 hmark.2 (by simp [Solid])
    (by simp [Unseparated])
  have heaten : ¬ Eaten occasion.before ([63] ++ (occasion.key ++ [])) := by
    rintro ⟨-, hall⟩
    exact absurd (hall 63 (by simp)) (by decide)
  obtain ⟨front, hfront, hsolid, hname, hscan⟩ :=
    front_of_not_eaten occasion.before_surrounding hkey heaten
  have hname' : Recognized alphabet front ↔ Recognized alphabet (63 :: occasion.key) := by
    rw [hname, List.append_nil, List.singleton_append]
    exact recognized_cons_append (by decide)
  have hfirst (value : Str) (htoken : IsToken value) :
      bearerFrom alphabet.isWord none (occasion.text .query value) =
        front ++ 61 :: (value ++ 38 :: 120 :: 61 ::
          bearerFrom alphabet.isWord (some 61) (49 :: occasion.after)) := by
    have htext : occasion.text .query value = occasion.before ++
        (([63] ++ (occasion.key ++ [])) ++
          61 :: (value ++ (codesOf "&x=1" ++ occasion.after))) := by
      simp [Occasion.text]
    rw [htext, hscan 61 _ (by decide) (by decide), bearerFrom_query htoken.solid]
  by_cases hrecognized : Recognized alphabet (63 :: occasion.key)
  · refine iff_of_true (fun value other hvalue hother => ?_) hrecognized
    rw [redactSecretText_eq, redactSecretText_eq, hfirst value hvalue, hfirst other hother]
    exact laterPasses_query hfront hsolid (hname'.mpr hrecognized) hvalue hother hrest
  · have hunnamed : ¬ Recognized alphabet front := fun hfound => hrecognized (hname'.mp hfound)
    refine iff_of_false (@not_same_of_kept _ (front ++ [61]) (fun _ => 38 :: 120 :: 61 ::
      bearerFrom alphabet.isWord (some 61) (49 :: occasion.after)) fun code hcode => ?_) hrecognized
    have htoken : IsToken [code] := by
      rcases hcode with rfl | rfl <;> decide
    have hseparated := unseparated_of_token htoken
    have hend : Unseparated ([code] ++ [38, 120]) ∧ EndsSolid ([code] ++ [38, 120]) := by
      rcases hcode with rfl | rfl <;> · unfold Unseparated EndsSolid; decide
    rw [redactSecretText_eq, hfirst _ htoken, laterPasses,
      headersFrom_separator hfront hsolid (by decide) fun hheader => hunnamed (Or.inl hheader),
      headersFrom_ampersand hseparated hrest,
      keysFrom_separator hfront hsolid (by decide) fun hkey => hunnamed (Or.inr hkey)]
    have hkept := @keysFrom_separator alphabet.isWord (some 61) ([code] ++ [38, 120])
      (bearerFrom alphabet.isWord (some 61) (49 :: occasion.after)) 61 hend.1 hend.2 (by decide)
      (not_endsKey_of_length (by simp))
    rw [keysFrom_unseparated hrest] at hkept
    have hcodes (rest : Str) : [code] ++ 38 :: 120 :: 61 :: rest =
        ([code] ++ [38, 120]) ++ 61 :: rest := rfl
    rw [hcodes, hkept]
    simp

/-- The first pass masks the value of a header whose scheme ends with `bearer`, and the second one
masks only the scheme. -/
theorem Occasion.hides_header (occasion : Occasion alphabet) :
    occasion.Hides .header ↔ occasion.Covers .header := by
  have hname : IsKey (codesOf "Authorization") := by
    refine ⟨by decide, ?_, ?_⟩
    · unfold Solid
      decide
    · unfold Unseparated
      decide
  obtain ⟨front, hfront, hsolid, -, hscan⟩ := @front_of_name alphabet _ _ 58
    occasion.before_surrounding hname (by decide) (by decide)
  have hscheme := occasion.scheme_token
  have hblank : ∀ code ∈ [32], isSpaceCode code = true := by decide
  by_cases hbearer : occasion.Covers .header
  · refine iff_of_true (fun value other hvalue hother => ?_) hbearer
    obtain ⟨init, word, hsplit, hword⟩ := hbearer
    have hfirst (value : Str) (htoken : IsToken value) :
        bearerFrom alphabet.isWord none (occasion.text .header value) =
          front ++ 58 :: 32 :: (init ++ (codesOf "Bearer " ++ redactedSecret ++
            bearerFrom alphabet.isWord none (occasion.after.dropWhile isBearerCode))) := by
      obtain ⟨code, rest, hparts⟩ := List.exists_cons_of_ne_nil htoken.1
      have hcode : code ∈ value := by
        rw [hparts]
        exact List.mem_cons_self
      have hdrop : (32 :: (value ++ occasion.after)).dropWhile isSpaceCode =
          value ++ occasion.after := by
        rw [List.dropWhile_cons_of_pos (by decide), hparts, List.cons_append,
          List.dropWhile_cons_of_neg (htoken.solid code hcode)]
      have hgoes : GoesOn (32 :: (value ++ occasion.after)) := by
        refine ⟨rfl, ?_⟩
        rw [hdrop, hparts]
        exact bearer_of_token (htoken.2 code hcode)
      rw [Occasion.text, hscan, bearerFrom_space (by decide), hsplit, List.append_assoc init,
        bearerFrom_bearer (hsplit ▸ hscheme.solid) hword hgoes, hdrop, dropWhile_value htoken]
    rw [redactSecretText_eq, redactSecretText_eq, hfirst value hvalue, hfirst other hother]
  · have hfirst (code : Nat) (hcode : code = 97 ∨ code = 99) :
        bearerFrom alphabet.isWord none (occasion.text .header [code]) =
          front ++ 58 :: ([32] ++ (occasion.scheme ++
            32 :: code :: bearerFrom alphabet.isWord (some 97) occasion.after)) := by
      rw [Occasion.text, hscan, bearerFrom_space (by decide), bearerFrom_solid hscheme.solid,
        bearerFrom_space (by decide), List.singleton_append, bearerFrom_letter code hcode]
      · rfl
      · rintro other hother
        cases hother
        decide
      · intro taken left hparts hword
        exact absurd ⟨taken, left, hparts.symm, hword⟩ hbearer
    have hkept (code : Nat) (hcode : code = 97 ∨ code = 99) :
        Unseparated (32 :: code :: bearerFrom alphabet.isWord (some 97) occasion.after) := by
      refine unseparated_cons (by decide) (unseparated_cons ?_
        (unseparated_bearerFrom (unseparated_surrounding occasion.after_surrounding)))
      rcases hcode with rfl | rfl <;> decide
    by_cases hrecognized : Recognized alphabet front
    · refine iff_of_false (@not_same_of_kept _ (front ++ 58 :: 32 :: (redactedSecret ++ [32]))
        (fun _ => bearerFrom alphabet.isWord (some 97) occasion.after) fun code hcode => ?_) hbearer
      rw [redactSecretText_eq, hfirst code hcode, laterPasses,
        passes_recognized hfront hsolid (by decide) hrecognized hblank hscheme.1
          (fun code hcode => (value_of_token (hscheme.2 code hcode)).1)
          (unseparated_of_token hscheme) (hkept code hcode) (by
            rintro blank hblank
            cases hblank
            decide)]
      simp
    · refine iff_of_false (@not_same_of_kept _ (front ++ 58 :: 32 :: (occasion.scheme ++ [32]))
        (fun _ => bearerFrom alphabet.isWord (some 97) occasion.after) fun code hcode => ?_) hbearer
      rw [redactSecretText_eq, hfirst code hcode, laterPasses,
        passes_unrecognized hfront hsolid (by decide) hrecognized (unseparated_append
          (unseparated_spaces hblank) (unseparated_append (unseparated_of_token hscheme)
            (hkept code hcode)))]
      simp

end Shapes

/-- A credential is hidden exactly where the passes cover its shape. -/
theorem hides_iff_covers {alphabet : Alphabet} (occasion : Occasion alphabet)
    (shape : CredentialShape) : occasion.Hides shape ↔ occasion.Covers shape := by
  cases shape with
  | assignment => exact occasion.hides_assignment
  | colon => exact occasion.hides_colon
  | quoted => exact occasion.hides_quoted
  | jsonMember => exact iff_of_false occasion.not_hides_jsonMember id
  | query => exact occasion.hides_query
  | header => exact occasion.hides_header

/-- The usual letters and word characters of ASCII. -/
def asciiAlphabet : Alphabet where
  isLetter := isAsciiLetter
  isWord code := isAsciiLetter code || (48 ≤ code && code ≤ 57) || code == 95
  lower := List.map fun code => if 65 ≤ code ∧ code ≤ 90 then code + 32 else code
  letter_ascii _ _ := rfl
  word_ascii _ _ := rfl
  word_of_letter _ hletter := by simp [hletter]
  not_word_of_space code hspace := by
    rw [isSpaceCode_iff] at hspace
    have hletter : ¬ isAsciiLetter code = true := by
      rw [isAsciiLetter_iff]
      omega
    have hdigit : 48 ≤ code → 57 < code := by omega
    have hunderscore : code ≠ 95 := by omega
    simpa [hletter, hunderscore] using hdigit
  lower_nil := rfl

/-- `"password": "hunter2"`, with nothing around it. -/
def passwordMember : Occasion asciiAlphabet where
  before := []
  after := []
  key := codesOf "password"
  scheme := codesOf "Basic"
  before_surrounding := by simp [IsSurrounding]
  after_surrounding := by simp [IsSurrounding]
  key_codes := by decide
  sensitive := by decide
  scheme_token := by decide

theorem password_member_is_not_hidden : ¬ passwordMember.Hides .jsonMember := by
  intro hhides
  have hsame := hhides (codesOf "hunter2") (codesOf "swordfish") (by decide) (by decide)
  exact absurd hsame (by decide +kernel)

end MuxivoConsole
