/-
Which addresses can be invited: the masked hint keeps the domain in full, and the invitation takes
hints of 192 characters only.
-/
import MuxivoConsole.Guarantees.MembersAgree

namespace MuxivoConsole

section Hints

variable {first : Char} {others domain : List Char}

/-- The hint of the parts of an address. -/
def hintOf (first : Char) (others domain : List Char) : String :=
  String.ofList (first :: List.replicate (max 1 (min 3 others.length)) '*' ++ '@' :: domain)

theorem maskedEmailHint_parts (hlocal : '@' ∉ first :: others) :
    maskedEmailHint (String.ofList (first :: others ++ '@' :: domain)) =
      .ok (hintOf first others domain) := by
  simp only [List.mem_cons, not_or] at hlocal
  exact maskedEmailHint_eq_ok.mpr
    ⟨first, others, domain, String.toList_ofList, fun heq => hlocal.1 heq.symm, hlocal.2, rfl⟩

/-- Of the local part, the hint keeps the first character and the length up to four. -/
theorem hintOf_congr {rest : List Char}
    (hlength : min (others.length + 1) 4 = min (rest.length + 1) 4) :
    hintOf first others domain = hintOf first rest domain := by
  have hmask : max 1 (min 3 others.length) = max 1 (min 3 rest.length) := by
    omega
  rw [hintOf, hintOf, hmask]

theorem length_hintOf :
    (hintOf first others domain).length = 2 + max 1 (min 3 others.length) + domain.length := by
  simp only [hintOf, String.length_ofList, List.length_append, List.length_cons,
    List.length_replicate]
  omega

/-- An invitation that takes one hint takes every other one that is not blank and not too long. -/
theorem postInit_hint_iff {invitation : OrganizationInvitationFields} {hint : String}
    (hother : { invitation with emailHint := "x" }.postInit = none)
    (hblank : isBlank hint = false) :
    { invitation with emailHint := hint }.postInit = none ↔ hint.length ≤ 192 := by
  have hone : ("x" : String).length = 1 := by decide
  have hsolid : isBlank "x" = false := by decide
  simp only [OrganizationInvitationFields.postInit, hone, hsolid] at hother
  simp only [OrganizationInvitationFields.postInit, hblank]
  constructor
  · intro haccepted
    split_ifs at haccepted with hlookup htoken hlong
    all_goals simpa using hlong
  · intro hshort
    have hnot : ¬ 192 < hint.length := by omega
    simpa [hnot] using hother

/-- An address can be invited exactly if its masked hint has at most 192 characters; the hint
depends on the first character of the local part and on whether it has one to four characters. -/
theorem invitation_constructible_iff_hint_fits (hlocal : '@' ∉ first :: others)
    {invitation : OrganizationInvitationFields}
    (hother : { invitation with emailHint := "x" }.postInit = none) :
    ∃ hint, maskedEmailHint (String.ofList (first :: others ++ '@' :: domain)) = .ok hint ∧
      ({ invitation with emailHint := hint }.postInit = none ↔
        2 + max 1 (min 3 others.length) + domain.length ≤ 192) ∧
      ∀ rest : List Char, '@' ∉ rest →
        min (first :: rest).length 4 = min (first :: others).length 4 →
        maskedEmailHint (String.ofList (first :: rest ++ '@' :: domain)) = .ok hint := by
  have hhint := @maskedEmailHint_parts first others domain hlocal
  refine ⟨_, hhint, ?_, ?_⟩
  · rw [postInit_hint_iff hother (maskedEmailHint_not_blank hhint), length_hintOf]
  · intro rest hrest hsame
    have hfirst : '@' ∉ first :: rest := by
      simp only [List.mem_cons, not_or] at hlocal ⊢
      exact ⟨hlocal.1, hrest⟩
    rw [maskedEmailHint_parts hfirst, hintOf_congr hsame]

end Hints

/-- An invitation whose hint is not there yet. -/
def plainInvitation : OrganizationInvitationFields where
  id := 1
  organizationId := 2
  invitedByUserId := 3
  emailLookupHash := String.ofList (List.replicate 64 'a')
  emailHint := ""
  emailCiphertext := [0]
  tokenHash := String.ofList (List.replicate 64 'b')
  role := .viewer
  resourceScopes := FrozenSet.of []
  expiresAt := 1
  createdAt := 0

theorem plainInvitation_accepts : { plainInvitation with emailHint := "x" }.postInit = none := by
  decide +kernel

theorem invitation_constructible_short_domain :
    ∃ hint, maskedEmailHint "ab@c" = .ok hint ∧
      { plainInvitation with emailHint := hint }.postInit = none := by
  obtain ⟨hint, hhint, haccepted, _⟩ := @invitation_constructible_iff_hint_fits 'a' ['b'] ['c']
    (by decide) plainInvitation plainInvitation_accepts
  exact ⟨hint, hhint, haccepted.mpr (by decide)⟩

/-- One character before the `@` and 252 after it: the hint is longer than the address. -/
theorem long_domain_not_invitable :
    ('a' :: '@' :: List.replicate 252 'b').length = 254 ∧
    { plainInvitation with emailHint := "x" }.postInit = none ∧
    ∃ hint, maskedEmailHint (String.ofList ('a' :: '@' :: List.replicate 252 'b')) = .ok hint ∧
      { plainInvitation with emailHint := hint }.postInit ≠ none := by
  have hhint := @maskedEmailHint_parts 'a' [] (List.replicate 252 'b') (by decide)
  have hlength : ('a' :: '@' :: List.replicate 252 'b').length = 254 := by
    rw [List.length_cons, List.length_cons, List.length_replicate]
  refine ⟨hlength, plainInvitation_accepts, _, hhint, fun haccepted => ?_⟩
  rw [postInit_hint_iff plainInvitation_accepts (maskedEmailHint_not_blank hhint), length_hintOf,
    List.length_replicate] at haccepted
  exact absurd haccepted (by decide)

end MuxivoConsole
