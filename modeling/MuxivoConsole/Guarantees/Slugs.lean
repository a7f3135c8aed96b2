/-
Every generated slug consists of groups of letters and digits with single hyphens between them,
ends with its suffix, and fits.
-/
import MuxivoConsole.Domain.Organizations
import MuxivoConsole.Infrastructure.Naming

namespace MuxivoConsole

open Text Regex

/-- No two hyphens stand side by side. -/
abbrev Single (codes : Str) : Prop :=
  codes.IsChain fun first second => ¬(first = 45 ∧ second = 45)

/-- Letters, digits and hyphens, with no two hyphens side by side and none at the ends. -/
structure Hyphenated (codes : Str) : Prop where
  all : ∀ code ∈ codes, isSlugCode code = true ∨ code = 45
  single : Single codes
  first : codes.head? ≠ some 45
  last : codes.getLast? ≠ some 45
  nonempty : codes ≠ []

section Hyphens

variable {codes : Str} {code : Nat}

theorem ne_hyphen_of_isSlugCode (hcode : isSlugCode code = true) : code ≠ 45 := by
  rintro rfl
  exact absurd hcode (by decide)

/-- Letters and digits are kept, and hyphens stand between them only. -/
theorem hyphenated_spec (codes : Str) :
    (∀ code ∈ hyphenated codes, isSlugCode code = true ∨ code = 45) ∧ Single (hyphenated codes) := by
  let motive : Option Nat → Str → Str → Prop := fun _ codes kept =>
    (∀ code ∈ kept, isSlugCode code = true ∨ code = 45) ∧ Single kept ∧
      (codes = [] → kept = []) ∧
      ∀ code, codes.head? = some code → isSlugCode code = true → kept.head? = some code
  suffices hmotive : motive none codes (hyphenated codes) from ⟨hmotive.1, hmotive.2.1⟩
  unfold hyphenated substitute
  apply substituteFrom_induction
  · intro previous codes texts left hmatch
    cases codes with
    | nil => simp [match?_some'_nil] at hmatch
    | cons code rest =>
        rw [match?_some'] at hmatch
        split_ifs at hmatch
        cases hmatch
        simp
  · intro previous
    exact ⟨by simp, List.isChain_nil, fun _ => rfl, by simp⟩
  · rintro previous code rest hmatch ⟨hall, hsingle, _, _⟩
    have hslug : isSlugCode code = true := by
      rw [match?_some'] at hmatch
      split_ifs at hmatch with hother
      simpa using hother
    refine ⟨?_, ?_, by simp, by simp⟩
    · intro kept hkept
      rcases List.mem_cons.mp hkept with rfl | hkept
      · exact Or.inl hslug
      · exact hall kept hkept
    · rw [Single, List.isChain_cons]
      exact ⟨fun _ _ hboth => ne_hyphen_of_isSlugCode hslug hboth.1, hsingle⟩
  · rintro previous codes texts left hmatch ⟨hall, hsingle, hempty, hhead⟩
    cases codes with
    | nil => simp [match?_some'_nil] at hmatch
    | cons code rest =>
        rw [match?_some'] at hmatch
        split_ifs at hmatch with hother
        cases hmatch
        refine ⟨?_, ?_, by simp, ?_⟩
        · intro kept hkept
          rcases List.mem_cons.mp hkept with rfl | hkept
          · exact Or.inr rfl
          · exact hall kept hkept
        · rw [List.singleton_append, Single, List.isChain_cons]
          refine ⟨?_, hsingle⟩
          -- what follows a run of other characters is a letter or a digit
          intro next hnext hboth
          cases hleft : rest.dropWhile fun code => !isSlugCode code with
          | nil =>
              rw [hempty hleft] at hnext
              simp at hnext
          | cons following others =>
              have hfollowing := List.head?_dropWhile_not (fun code => !isSlugCode code) rest
              rw [hleft] at hfollowing
              have hslug : isSlugCode following = true := by simpa using hfollowing
              rw [hhead following (by rw [hleft]; rfl) hslug] at hnext
              cases hnext
              exact ne_hyphen_of_isSlugCode hslug hboth.2
        · rintro first hfirst hslug
          cases hfirst
          simp [hslug] at hother

theorem head?_stripHyphens : (stripHyphens codes).head? ≠ some 45 := by
  intro hhead
  have hprefix : stripHyphens codes <+: codes.dropWhile (· == 45) := List.rdropWhile_prefix _ _
  obtain ⟨rest, hrest⟩ := hprefix
  have hfirst := List.head?_dropWhile_not (fun code => code == 45) codes
  rw [← hrest, List.head?_append, hhead] at hfirst
  simp at hfirst

theorem getLast?_rstripHyphens : (rstripHyphens codes).getLast? ≠ some 45 := by
  intro hlast
  have hne : rstripHyphens codes ≠ [] := by
    rintro hnil
    rw [hnil] at hlast
    simp at hlast
  have hnot := List.rdropWhile_last_not (fun code => code == 45) codes hne
  rw [List.getLast?_eq_some_getLast hne, Option.some.injEq] at hlast
  simp only [rstripHyphens] at hlast
  rw [hlast] at hnot
  simp at hnot

/-- What is stripped of a text with single hyphens has them between letters and digits only. -/
theorem hyphenated_strip (hne : stripHyphens (hyphenated codes) ≠ []) :
    Hyphenated (stripHyphens (hyphenated codes)) := by
  have hinside : stripHyphens (hyphenated codes) <:+: hyphenated codes :=
    (List.rdropWhile_prefix _ _).isInfix.trans (List.dropWhile_suffix _).isInfix
  obtain ⟨hall, hsingle⟩ := hyphenated_spec codes
  exact {
    all := fun code hcode => hall code (hinside.subset hcode)
    single := hsingle.infix hinside
    first := head?_stripHyphens
    last := getLast?_rstripHyphens
    nonempty := hne }

/-- A cut keeps the form, once the hyphen that it may leave at the end is gone. -/
theorem Hyphenated.cut (hcodes : Hyphenated codes) {length : Nat} (hlength : 0 < length) :
    Hyphenated (rstripHyphens (codes.take length)) := by
  have hprefix : rstripHyphens (codes.take length) <+: codes.take length :=
    List.rdropWhile_prefix _ _
  have hwhole : rstripHyphens (codes.take length) <+: codes :=
    hprefix.trans (List.take_prefix length codes)
  obtain ⟨first, rest, rfl⟩ := List.exists_cons_of_ne_nil hcodes.nonempty
  have hfirst : first ≠ 45 := fun heq => hcodes.first (by rw [heq]; rfl)
  obtain ⟨others, hothers⟩ : ∃ others, (first :: rest).take length = first :: others :=
    ⟨rest.take (length - 1), List.take_cons hlength⟩
  have hkept : rstripHyphens ((first :: rest).take length) ≠ [] := by
    rw [rstripHyphens, Ne, List.rdropWhile_eq_nil_iff]
    intro hall
    have hhyphen := hall first (by simp [hothers])
    exact hfirst (by simpa using hhyphen)
  refine ⟨fun code hcode => hcodes.all code (hwhole.subset hcode),
    hcodes.single.infix hwhole.isInfix, ?_, getLast?_rstripHyphens, hkept⟩
  obtain ⟨tail, htail⟩ := hwhole
  intro hhead
  have hsame := congrArg List.head? htail
  rw [List.head?_append, hhead] at hsame
  exact hfirst (by simpa using hsame.symm)

/-- Letters and digits have no hyphens to stand side by side. -/
theorem single_of_slug {suffix : Str} (hsuffix : ∀ code ∈ suffix, isSlugCode code = true) :
    Single suffix := by
  induction suffix with
  | nil => exact List.isChain_nil
  | cons head tail ih =>
      rw [Single, List.isChain_cons]
      refine ⟨fun next _ hboth => ?_, ih fun code hcode => hsuffix code (List.mem_cons_of_mem _ hcode)⟩
      exact ne_hyphen_of_isSlugCode (hsuffix head List.mem_cons_self) hboth.1

/-- Letters and digits that are added after a hyphen keep the form. -/
theorem Hyphenated.append (hcodes : Hyphenated codes) {suffix : Str} (hne : suffix ≠ [])
    (hsuffix : ∀ code ∈ suffix, isSlugCode code = true) : Hyphenated (codes ++ 45 :: suffix) := by
  obtain ⟨first, rest, rfl⟩ := List.exists_cons_of_ne_nil hcodes.nonempty
  obtain ⟨head, tail, rfl⟩ := List.exists_cons_of_ne_nil hne
  have hhead := ne_hyphen_of_isSlugCode (hsuffix head List.mem_cons_self)
  have htail : Single (45 :: head :: tail) := by
    rw [Single, List.isChain_cons]
    exact ⟨fun next hnext hboth => hhead (by simpa [hboth.2] using hnext),
      single_of_slug hsuffix⟩
  refine ⟨?_, ?_, ?_, ?_, by simp⟩
  · intro code hcode
    rcases List.mem_append.mp hcode with hcode | hcode
    · exact hcodes.all code hcode
    · rcases List.mem_cons.mp hcode with rfl | hcode
      · exact Or.inr rfl
      · exact Or.inl (hsuffix code hcode)
  · refine List.isChain_append.mpr ⟨hcodes.single, htail, ?_⟩
    rintro last hlast _ _ ⟨rfl, _⟩
    exact hcodes.last hlast
  · rw [List.cons_append, List.head?_cons]
    exact fun heq => hcodes.first (by rw [List.head?_cons, heq])
  · have hend : (head :: tail).getLast (by simp) ≠ 45 :=
      ne_hyphen_of_isSlugCode (hsuffix _ (List.getLast_mem _))
    rw [List.getLast?_append_cons, List.getLast?_cons_cons, List.getLast?_eq_some_getLast (by simp)]
    exact fun heq => hend (Option.some.inj heq)

/-- The form in terms of its groups. -/
theorem Hyphenated.exists_groups (hcodes : Hyphenated codes) :
    ∃ groups : List Str, groups ≠ [] ∧
      (∀ group ∈ groups, group ≠ [] ∧ ∀ code ∈ group, isSlugCode code = true) ∧
      codes = [45].intercalate groups := by
  induction hlength : codes.length using Nat.strong_induction_on generalizing codes with
  | h length ih =>
      have hsplit := List.takeWhile_append_dropWhile (p := isSlugCode) (l := codes)
      have hgroup : ∀ code ∈ codes.takeWhile isSlugCode, isSlugCode code = true :=
        fun code hcode => List.mem_takeWhile_imp hcode
      have hstart : codes.takeWhile isSlugCode ≠ [] := by
        obtain ⟨first, rest, rfl⟩ := List.exists_cons_of_ne_nil hcodes.nonempty
        rcases hcodes.all first List.mem_cons_self with hslug | rfl
        · simp [hslug]
        · exact absurd rfl hcodes.first
      cases hrest : codes.dropWhile isSlugCode with
      | nil =>
          rw [hrest, List.append_nil] at hsplit
          refine ⟨[codes.takeWhile isSlugCode], by simp, ?_, ?_⟩
          · intro group hmem
            rw [List.mem_singleton] at hmem
            rw [hmem]
            exact ⟨hstart, hgroup⟩
          · rw [List.intercalate_singleton, hsplit]
      | cons hyphen others =>
          rw [hrest] at hsplit
          have hsuffix : others <:+ codes :=
            ⟨codes.takeWhile isSlugCode ++ [hyphen], by simpa using hsplit⟩
          have hhyphen : hyphen = 45 := by
            have hnot := List.head?_dropWhile_not isSlugCode codes
            rw [hrest] at hnot
            rcases hcodes.all hyphen (by rw [← hsplit]; simp) with hslug | heq
            · simp [hslug] at hnot
            · exact heq
          subst hhyphen
          have hne : others ≠ [] := by
            rintro rfl
            refine hcodes.last ?_
            rw [← hsplit, List.getLast?_append_cons]
            rfl
          have hsingle : Single (45 :: others) :=
            hcodes.single.suffix ⟨codes.takeWhile isSlugCode, hsplit⟩
          have hothers : Hyphenated others := by
            refine ⟨fun code hcode => hcodes.all code (hsuffix.subset hcode),
              hcodes.single.suffix hsuffix, ?_, ?_, hne⟩
            · intro hhead
              rw [Single, List.isChain_cons] at hsingle
              exact hsingle.1 45 hhead ⟨rfl, rfl⟩
            · obtain ⟨before, hbefore⟩ := hsuffix
              intro hlast
              refine hcodes.last ?_
              rw [← hbefore, List.getLast?_append, hlast, Option.some_or]
          have hshorter : others.length < length := by
            have hlengths := congrArg List.length hsplit
            simp only [List.length_append, List.length_cons] at hlengths
            omega
          obtain ⟨groups, hgroups, hall, hjoined⟩ := ih others.length hshorter hothers rfl
          refine ⟨codes.takeWhile isSlugCode :: groups, by simp, ?_, ?_⟩
          · intro group hmem
            rcases List.mem_cons.mp hmem with rfl | hmem
            · exact ⟨hstart, hgroup⟩
            · exact hall group hmem
          · obtain ⟨next, following, rfl⟩ := List.exists_cons_of_ne_nil hgroups
            rw [List.intercalate_cons_cons, ← hjoined, List.append_assoc, List.singleton_append,
              hsplit]

end Hyphens

namespace RandomSuffixOrganizationSlugGenerator

variable {normalize : Str → Str} {name suffix : Str}

/-- `[0-9a-f]` -/
def isHexCode (code : Nat) : Bool :=
  (48 ≤ code && code ≤ 57) || (97 ≤ code && code ≤ 102)

theorem isSlugCode_of_isHexCode {code : Nat} (hcode : isHexCode code = true) :
    isSlugCode code = true := by
  simp only [isHexCode, isSlugCode, Bool.or_eq_true, Bool.and_eq_true, decide_eq_true_eq] at hcode ⊢
  omega

theorem hyphenated_organization : Hyphenated (codesOf "organization") where
  all := by decide
  single := by decide
  first := by decide
  last := by decide
  nonempty := by decide

theorem hyphenated_stem : Hyphenated (stem normalize name) := by
  unfold stem
  dsimp only
  split_ifs with hempty
  · exact hyphenated_organization
  · exact hyphenated_strip hempty

theorem hyphenated_generate (hlength : suffix.length = 8)
    (hhex : ∀ code ∈ suffix, isHexCode code = true) :
    Hyphenated (generate normalize name suffix) := by
  have hne : suffix ≠ [] := by
    rintro rfl
    simp at hlength
  rw [generate, hlength]
  exact (hyphenated_stem.cut (by decide)).append hne
    fun code hcode => isSlugCode_of_isHexCode (hhex code hcode)

theorem length_generate (hlength : suffix.length = 8) :
    (generate normalize name suffix).length ≤ 96 := by
  have hprefix : rstripHyphens ((stem normalize name).take (96 - suffix.length - 1)) <+:
      (stem normalize name).take (96 - suffix.length - 1) := List.rdropWhile_prefix _ _
  have hshorter := hprefix.length_le
  rw [List.length_take] at hshorter
  rw [generate, List.length_append, List.length_cons]
  omega

/-- Texts of ASCII codes are the codes of a text. -/
theorem exists_codesOf {codes : Str} (hcodes : ∀ code ∈ codes, code < 128) :
    ∃ text, codesOf text = codes := by
  have hall : ∀ code < 128, (Char.ofNat code).toNat = code := by decide
  refine ⟨String.ofList (codes.map Char.ofNat), ?_⟩
  rw [codesOf, String.toList_ofList, List.map_map]
  conv_rhs => rw [← List.map_id codes]
  exact List.map_congr_left fun code hcode => hall code (hcodes code hcode)

/-- A generated slug consists of groups of letters and digits with single hyphens between them, ends
with its suffix, has at most 96 characters, and is one that the organization takes. -/
theorem generate_well_formed {organization : OrganizationFields}
    (hname : { organization with slug := "x" }.postInit = none) (hlength : suffix.length = 8)
    (hhex : ∀ code ∈ suffix, isHexCode code = true) :
    ∃ slug : String, codesOf slug = generate normalize (codesOf organization.name) suffix ∧
      (codesOf slug).length ≤ 96 ∧ codesOf slug ≠ [] ∧
      (∃ groups : List Str, groups ≠ [] ∧
        (∀ group ∈ groups, group ≠ [] ∧ ∀ code ∈ group, isSlugCode code = true) ∧
        codesOf slug = [45].intercalate groups) ∧
      suffix <:+ codesOf slug ∧ { organization with slug := slug }.postInit = none := by
  have hform := @hyphenated_generate normalize (codesOf organization.name) suffix hlength hhex
  have hshort := @length_generate normalize (codesOf organization.name) suffix hlength
  have hascii : ∀ code ∈ generate normalize (codesOf organization.name) suffix, code < 128 := by
    intro code hcode
    rcases hform.all code hcode with hslug | rfl
    · simp only [isSlugCode, Bool.or_eq_true, Bool.and_eq_true, decide_eq_true_eq] at hslug
      omega
    · decide
  obtain ⟨slug, hslug⟩ := exists_codesOf hascii
  refine ⟨slug, hslug, hslug ▸ hshort, hslug ▸ hform.nonempty, hslug ▸ hform.exists_groups, ?_, ?_⟩
  · rw [hslug, generate]
    exact ⟨rstripHyphens ((stem normalize (codesOf organization.name)).take
      (96 - suffix.length - 1)) ++ [45], by simp⟩
  · have hcount : slug.length = (generate normalize (codesOf organization.name) suffix).length := by
      rw [← hslug, codesOf, List.length_map, String.length_toList]
    have hpositive := List.length_pos_iff.mpr hform.nonempty
    have hone : ("x" : String).length = 1 := by decide
    have hnotEmpty : ¬ slug.length = 0 := by omega
    have hnotLong : ¬ 96 < slug.length := by omega
    simp only [OrganizationFields.postInit, hone] at hname
    simp only [OrganizationFields.postInit]
    simpa [hnotEmpty, hnotLong] using hname

theorem generate_well_formed_symbols :
    ∃ slug : String, codesOf slug = generate (fun name => name) (codesOf "!!") (List.replicate 8 48) ∧
      ({ id := 1, name := "!!", slug := slug } : OrganizationFields).postInit = none := by
  obtain ⟨slug, hslug, _, _, _, _, haccepted⟩ := @generate_well_formed (fun name => name)
    (List.replicate 8 48) ⟨1, "!!", ""⟩ (by decide +kernel) (by decide) (by decide)
  exact ⟨slug, hslug, haccepted⟩

end RandomSuffixOrganizationSlugGenerator

end MuxivoConsole
