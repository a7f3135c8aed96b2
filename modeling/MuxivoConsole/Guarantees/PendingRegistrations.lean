/-
Stored registrations: the form in which the store holds them loses nothing, however often a value is
read, counted up and stored again.
-/
import MuxivoConsole.Application.AuthSystem
import MuxivoConsole.Application.PendingRegistrations

namespace MuxivoConsole

open Text Json

section Texts

variable {text : String} {codes : Str}

theorem length_codesOf (text : String) : (codesOf text).length = text.length := by
  rw [codesOf, List.length_map, String.length_toList]

theorem isPrefixOf_codesOf (first second : String) :
    (codesOf first).isPrefixOf (codesOf second) = first.toList.isPrefixOf second.toList := by
  rw [codesOf, codesOf]
  generalize first.toList = start, second.toList = whole
  induction start generalizing whole with
  | nil => rfl
  | cons head tail ih =>
      cases whole with
      | nil => rfl
      | cons other rest =>
          have hhead : (head.toNat == other.toNat) = (head == other) := by
            rw [Bool.eq_iff_iff, beq_iff_eq, beq_iff_eq, Char.toNat_inj]
          rw [List.map_cons, List.map_cons, List.isPrefixOf_cons_cons, List.isPrefixOf_cons_cons,
            ih, hhead]

theorem stripCodes_codesOf (hblank : isBlank text = false) : stripCodes (codesOf text) ≠ [] := by
  intro hnil
  have hstrip : stripCodes (codesOf text) = codesOf (strip text) := by
    rw [stripCodes, codesOf, codesOf, strip, String.toList_ofList, List.dropWhile_map,
      List.rdropWhile, List.rdropWhile, ← List.map_reverse, List.dropWhile_map, List.map_reverse]
    rfl
  rw [hstrip, codesOf, List.map_eq_nil_iff, String.toList_eq_nil_iff] at hnil
  rw [(isBlank_iff_strip_eq_empty text).mpr hnil] at hblank
  cases hblank

theorem textOf?_of_scalars (hcodes : ∀ code ∈ codes, IsScalar code) :
    textOf? codes = some (String.ofList (codes.map Char.ofNat)) :=
  if_pos hcodes

theorem textOf?_codesOf (text : String) : textOf? (codesOf text) = some text := by
  have hsame : (Char.ofNat ∘ Char.toNat) = id := funext Char.ofNat_toNat
  rw [textOf?_of_scalars (isScalar_codesOf text), codesOf, List.map_map, hsame, List.map_id,
    String.ofList_toList]

/-- A text of scalar values is that of some string. -/
theorem exists_codesOf (hcodes : ∀ code ∈ codes, IsScalar code) :
    ∃ text, textOf? codes = some text ∧ codesOf text = codes := by
  refine ⟨_, textOf?_of_scalars hcodes, ?_⟩
  rw [codesOf, String.toList_ofList, List.map_map]
  calc codes.map (Char.toNat ∘ Char.ofNat) = codes.map id := by
        refine List.map_congr_left fun code hcode => ?_
        have hvalid : code.isValidChar := hcodes code hcode
        rw [Function.comp_apply, Char.ofNat, dif_pos hvalid]
        rfl
    _ = codes := List.map_id codes

end Texts

section RoundTrip

variable {pending : PendingEmailPasswordRegistrationFields} {depth : Nat}

/-- The value as the decoder builds it. -/
def PendingEmailPasswordRegistrationFields.decoded
    (pending : PendingEmailPasswordRegistrationFields) : DecodedRegistration where
  registrationId := pending.registrationId
  emailCiphertext := pending.emailCiphertext
  emailLookupHash := .string (codesOf pending.emailLookupHash)
  passwordHash := .string (codesOf pending.passwordHash)
  displayName := .string (codesOf pending.displayName)
  verificationCodeHash := .string (codesOf pending.verificationCodeHash)
  attempts := .int pending.attempts

/-- What the constructor has checked. -/
theorem PendingEmailPasswordRegistrationFields.checked (hvalid : pending.postInit = none) :
    pending.emailCiphertext.isEmpty = false ∧ pending.emailLookupHash.length = 64 ∧
      isArgon2id pending.passwordHash = true ∧ isBlank pending.displayName = false ∧
      pending.displayName.length ≤ 64 ∧ pending.verificationCodeHash.length = 64 ∧
      0 ≤ pending.attempts ∧ pending.attempts ≤ maxVerificationAttempts := by
  unfold PendingEmailPasswordRegistrationFields.postInit at hvalid
  split_ifs at hvalid with hempty hlookup hpassword hname hcode hattempts
  simp only [Bool.or_eq_true, decide_eq_true_eq, not_or, Bool.not_eq_true] at hname
  refine ⟨by simpa using hempty, not_not.mp hlookup, by simpa using hpassword, hname.1, by omega,
    not_not.mp hcode, hattempts⟩

/-- With another counter it is checked for the counter only. -/
theorem recounted_accepted (hvalid : pending.postInit = none) {attempts : ℤ} :
    { pending with attempts }.postInit = none ↔
      0 ≤ attempts ∧ attempts ≤ maxVerificationAttempts := by
  obtain ⟨hempty, hlookup, hpassword, hblank, hname, hcode, -⟩ := pending.checked hvalid
  have hshort : ¬ 64 < pending.displayName.length := Nat.not_lt.mpr hname
  simp [PendingEmailPasswordRegistrationFields.postInit, hempty, hlookup, hpassword, hblank,
    hshort, hcode]

/-- The checks of the decoder are those of the constructor. -/
theorem postInit_decoded (hvalid : pending.postInit = none) :
    pending.decoded.postInit = .ok () := by
  obtain ⟨hempty, hlookup, hpassword, hblank, hname, hcode, hattempts⟩ := pending.checked hvalid
  have hlookupLength : lengthOf (.string (codesOf pending.emailLookupHash)) = .ok 64 := by
    rw [lengthOf, length_codesOf, hlookup]
  have hstarts : startsWithArgon2id (.string (codesOf pending.passwordHash)) = .ok true := by
    rw [startsWithArgon2id, isPrefixOf_codesOf]
    exact congrArg _ hpassword
  have hnamed : isInvalidName (.string (codesOf pending.displayName)) = .ok false := by
    have hshort : ¬ 64 < pending.displayName.length := Nat.not_lt.mpr hname
    simp [isInvalidName, stripCodes_codesOf hblank, length_codesOf, hshort]
  have hcodeLength : lengthOf (.string (codesOf pending.verificationCodeHash)) = .ok 64 := by
    rw [lengthOf, length_codesOf, hcode]
  unfold DecodedRegistration.postInit
  simp only [PendingEmailPasswordRegistrationFields.decoded, hlookupLength, hstarts, hnamed,
    hcodeLength, integer?, hempty, ok_bind, require, hattempts]
  rfl

theorem members_distinct : (pending.members.map Prod.fst).Nodup := by
  have hkeys : pending.members.map Prod.fst = ["registration_id", "email_ciphertext",
      "email_lookup_hash", "password_hash", "display_name", "verification_code_hash",
      "attempts"].map codesOf := rfl
  rw [hkeys, List.nodup_map_iff fun _ _ => codesOf_injective]
  decide

theorem members_readable (hvalid : pending.postInit = none) :
    ∀ member ∈ pending.members, ReadableMember member := by
  have hascii : ∀ codes : Str, (∀ code ∈ codes, code < 128) → ∀ code ∈ codes, IsScalar code :=
    fun codes hcodes code hcode => Or.inl ((hcodes code hcode).trans (by decide))
  obtain ⟨-, -, -, -, -, -, hlow, hhigh⟩ := pending.checked hvalid
  have hdigits : (showNat pending.attempts.natAbs).length ≤ maxDigits := by
    have hall : ∀ number < 6, (showNat number).length ≤ maxDigits := by decide
    refine hall _ ?_
    simp only [maxVerificationAttempts] at hhigh
    omega
  intro member hmember
  simp only [PendingEmailPasswordRegistrationFields.members, List.mem_cons, List.not_mem_nil,
    or_false] at hmember
  rcases hmember with rfl | rfl | rfl | rfl | rfl | rfl | rfl
  · exact ⟨isScalar_codesOf _, isScalar_codesOf _⟩
  · exact ⟨isScalar_codesOf _, hascii _ ascii_urlsafeB64encode⟩
  · exact ⟨isScalar_codesOf _, isScalar_codesOf _⟩
  · exact ⟨isScalar_codesOf _, isScalar_codesOf _⟩
  · exact ⟨isScalar_codesOf _, isScalar_codesOf _⟩
  · exact ⟨isScalar_codesOf _, isScalar_codesOf _⟩
  · exact ⟨isScalar_codesOf _, hdigits⟩

/-- The members as the decoder sees them. -/
theorem loads_toJson (hvalid : pending.postInit = none) :
    loads (depth + 1) pending.toJson = .ok (.object
      ((sortMembers pending.members).map fun member => (member.1, member.2.value))) := by
  have hsorted : (sortMembers pending.members).Perm pending.members :=
    List.perm_insertionSort _ _
  refine loads_encodeObject ((hsorted.map Prod.fst).nodup_iff.mpr members_distinct) ?_
  intro member hmember
  exact members_readable hvalid member (hsorted.mem_iff.mp hmember)

/-- The constructor of the decoder accepts them. -/
theorem decodePayload_members (hvalid : pending.postInit = none) :
    decodePayload ((sortMembers pending.members).map fun member => (member.1, member.2.value)) =
      .ok (some pending.decoded) := by
  have hfound : ∀ key atom, (codesOf key, atom) ∈ pending.members →
      member? ((sortMembers pending.members).map fun member => (member.1, member.2.value)) key =
        some atom.value :=
    fun key atom hmember => member?_sortMembers members_distinct hmember
  generalize (sortMembers pending.members).map (fun member => (member.1, member.2.value)) =
    payload at hfound
  simp only [PendingEmailPasswordRegistrationFields.members, List.mem_cons, List.not_mem_nil,
    or_false] at hfound
  have hrequired : ∀ key atom, member? payload key = some (Atom.value atom) →
      required payload key = .ok atom.value :=
    fun key atom hmember => by rw [required, hmember, orRaise]
  have hid := hrequired _ _ (hfound "registration_id" _ (Or.inl rfl))
  have hciphertext := hrequired _ _ (hfound "email_ciphertext" _ (Or.inr (Or.inl rfl)))
  have hlookup := hrequired _ _ (hfound "email_lookup_hash" _ (Or.inr (Or.inr (Or.inl rfl))))
  have hpassword := hrequired _ _ (hfound "password_hash" _
    (Or.inr (Or.inr (Or.inr (Or.inl rfl)))))
  have hname := hrequired _ _ (hfound "display_name" _
    (Or.inr (Or.inr (Or.inr (Or.inr (Or.inl rfl))))))
  have hcode := hrequired _ _ (hfound "verification_code_hash" _
    (Or.inr (Or.inr (Or.inr (Or.inr (Or.inr (Or.inl rfl)))))))
  have hattempts := hfound "attempts" _
    (Or.inr (Or.inr (Or.inr (Or.inr (Or.inr (Or.inr rfl))))))
  have hbytes : (required payload "email_ciphertext").bind toBytes =
      .ok pending.emailCiphertext := by
    rw [hciphertext, Except.bind, Atom.value, toBytes, urlsafeB64decode?_encode, orRaise]
  have hidentifier : (required payload "registration_id").bind toUUID =
      .ok pending.registrationId := by
    rw [hid, Except.bind, Atom.value, toUUID, UUID.parse?_codesOf_str, orRaise]
  have hchecked := postInit_decoded hvalid
  rw [PendingEmailPasswordRegistrationFields.decoded] at hchecked ⊢
  have hmade : decodeRegistration payload pending.emailCiphertext (.int pending.attempts) =
      .ok { registrationId := pending.registrationId
            emailCiphertext := pending.emailCiphertext
            emailLookupHash := .string (codesOf pending.emailLookupHash)
            passwordHash := .string (codesOf pending.passwordHash)
            displayName := .string (codesOf pending.displayName)
            verificationCodeHash := .string (codesOf pending.verificationCodeHash)
            attempts := .int pending.attempts } := by
    simp only [decodeRegistration, hidentifier, hlookup, hpassword, hname, hcode, Atom.value,
      ok_bind, hchecked]
    rfl
  have hcounted : (integer? (.int pending.attempts)).isNone = false := rfl
  simp only [decodePayload, hbytes, ok_bind, hattempts, Option.getD_some, Atom.value, hcounted,
    Bool.false_eq_true, if_false, hmade]
  rfl

/-- A valid value is decoded from what is stored of it. -/
theorem fromJson_toJson (hvalid : pending.postInit = none) :
    fromJson (depth + 1) pending.toJson = .ok (some pending.decoded) := by
  rw [fromJson, loads_toJson hvalid, ok_bind]
  change orNone (decodePayload _) = _
  rw [decodePayload_members hvalid, orNone]

/-- Reading the types back gives the value. -/
theorem typed?_decoded (hvalid : pending.postInit = none) :
    pending.decoded.typed? = some ⟨pending, hvalid⟩ := by
  simp only [DecodedRegistration.typed?, PendingEmailPasswordRegistrationFields.decoded, text?,
    textOf?_codesOf, integer?, Option.bind_eq_bind, Option.bind_some]
  exact Validated.make_toOption_eq_some.mpr rfl

end RoundTrip

section Codec

variable (ports : AuthPorts) (depth : Nat)

/-- The stored form gives back what was stored. -/
theorem withJson_fromJson (pending : PendingEmailPasswordRegistration) :
    (ports.withJson (depth + 1)).fromJson ((ports.withJson (depth + 1)).toJson pending) =
      some pending := by
  have hascii : ∀ code ∈ pending.fields.toJson, IsScalar code :=
    fun code hcode => Or.inl ((ascii_encodeObject _ code hcode).trans (by decide))
  obtain ⟨text, htext, hcodes⟩ := exists_codesOf hascii
  have hstored : (ports.withJson (depth + 1)).toJson pending = text := by
    simp only [AuthPorts.withJson, htext, Option.getD_some]
  have hread : (ports.withJson (depth + 1)).fromJson text =
      (fromJson (depth + 1) (codesOf text)).toOption.join.bind DecodedRegistration.typed? := by
    simp only [AuthPorts.withJson]
  rw [hstored, hread, hcodes, fromJson_toJson pending.accepted]
  exact typed?_decoded pending.accepted

/-- A wrong guess: the value is read, its counter set, and stored again. -/
def AuthPorts.recount (ports : AuthPorts) (stored : String) (attempts : ℤ) : Option String := do
  let pending ← ports.fromJson stored
  let counted ← (pending.fields.withAttempts attempts).toOption
  return ports.toJson counted

/-- Storing a registration and setting its counter any number of times changes the counter and
nothing else. -/
theorem registrations_survive_storage (pending : PendingEmailPasswordRegistration)
    (counts : List ℤ)
    (hcounts : ∀ count ∈ counts, 0 ≤ count ∧ count ≤ maxVerificationAttempts) :
    ∃ stored, counts.foldlM (ports.withJson (depth + 1)).recount
        ((ports.withJson (depth + 1)).toJson pending) = some stored ∧
      ∃ final, (ports.withJson (depth + 1)).fromJson stored = some final ∧
        final.fields = { pending.fields with
          attempts := counts.getLastD pending.fields.attempts } := by
  induction counts generalizing pending with
  | nil => exact ⟨_, rfl, pending, withJson_fromJson ports depth pending, rfl⟩
  | cons count counts ih =>
      have haccepted : { pending.fields with attempts := count }.postInit = none :=
        (recounted_accepted pending.accepted).mpr (hcounts count List.mem_cons_self)
      have hstep : (ports.withJson (depth + 1)).recount
          ((ports.withJson (depth + 1)).toJson pending) count =
            some ((ports.withJson (depth + 1)).toJson ⟨_, haccepted⟩) := by
        rw [AuthPorts.recount, withJson_fromJson, Option.bind_eq_bind, Option.bind_some,
          PendingEmailPasswordRegistrationFields.withAttempts,
          Validated.make_of_accepted haccepted]
        rfl
      obtain ⟨stored, hstored, final, hfinal, hfields⟩ := ih ⟨_, haccepted⟩
        fun other hother => hcounts other (List.mem_cons_of_mem _ hother)
      refine ⟨stored, ?_, final, hfinal, ?_⟩
      · rw [List.foldlM_cons, hstep]
        exact hstored
      · rw [hfields, List.getLastD_cons]

end Codec

namespace Scenario

/-- A registration that has not seen a wrong code yet. -/
def untriedRegistration : PendingEmailPasswordRegistration where
  fields := {
    registrationId := 9
    emailCiphertext := [0, 255]
    emailLookupHash := digest "lookup"
    passwordHash := "$argon2id$password"
    displayName := "Newcomer"
    verificationCodeHash := digest "code" }
  accepted := by decide +kernel

end Scenario

/-- Two wrong guesses. -/
theorem registrations_survive_storage_twice :
    ∃ stored, [1, 2].foldlM (Scenario.authPorts.withJson 1).recount
        ((Scenario.authPorts.withJson 1).toJson Scenario.untriedRegistration) = some stored ∧
      ∃ final, (Scenario.authPorts.withJson 1).fromJson stored = some final ∧
        final.fields = { Scenario.untriedRegistration.fields with attempts := 2 } :=
  registrations_survive_storage Scenario.authPorts 0 Scenario.untriedRegistration [1, 2]
    (by decide)

end MuxivoConsole
