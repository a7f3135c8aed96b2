/-
What the decoder of stored registrations makes of any text: on which ones it fails with an error
that it does not catch, and what the values are that it accepts.
-/
import MuxivoConsole.Application.PendingRegistrations

namespace MuxivoConsole
open Text Json

section Decoding

variable {α β : Type} {payload : Members} {value : Value}

/-- An attempt whose error `from_json` lets through. -/
def Escapes (attempt : Attempt α) : Prop :=
  ∃ error, attempt = .error error ∧ isCaught error = false

theorem escapes_ok (value : α) : ¬ Escapes (.ok value) := by
  rintro ⟨error, ⟨⟩, _⟩

theorem escapes_error (error : PythonError) :
    Escapes (.error error : Attempt α) ↔ isCaught error = false := by
  constructor
  · rintro ⟨other, ⟨⟩, hother⟩
    exact hother
  · exact fun hcaught => ⟨error, rfl, hcaught⟩

theorem escapes_bind {attempt : Attempt α} {next : α → Attempt β} :
    Escapes (attempt >>= next) ↔
      Escapes attempt ∨ ∃ value, attempt = .ok value ∧ Escapes (next value) := by
  cases attempt with
  | error error =>
      rw [error_bind, escapes_error, escapes_error]
      simp
  | ok value =>
      rw [ok_bind]
      simp [escapes_ok]

theorem escapes_orRaise {error : PythonError} (hcaught : isCaught error = true)
    (value : Option α) : ¬ Escapes (orRaise error value) := by
  cases value with
  | none =>
      rw [orRaise, escapes_error, hcaught]
      exact Bool.false_ne_true.symm
  | some value => exact escapes_ok value

theorem escapes_require (condition : Bool) : ¬ Escapes (require condition) := by
  unfold require
  split_ifs
  · exact escapes_ok ()
  · rw [escapes_error]
    decide

def isText : Value → Bool
  | .string _ => true
  | _ => false

theorem escapes_toUUID : Escapes (toUUID value) ↔ isText value = false ∧ value ≠ .null := by
  cases value with
  | string codes => simp [toUUID, isText, @escapes_orRaise _ .valueError rfl]
  | _ => simp [toUUID, isText, escapes_error, isCaught]

theorem escapes_toBytes : ¬ Escapes (toBytes value) := by
  cases value with
  | string codes => exact escapes_orRaise rfl _
  | _ =>
      rw [toBytes, escapes_error]
      · decide
      · rintro codes ⟨⟩

theorem escapes_lengthOf : ¬ Escapes (lengthOf value) := by
  cases value <;> simp [lengthOf, escapes_ok, escapes_error, isCaught]

theorem escapes_startsWithArgon2id : Escapes (startsWithArgon2id value) ↔ isText value = false := by
  cases value <;> simp [startsWithArgon2id, isText, escapes_ok, escapes_error, isCaught]

theorem escapes_isInvalidName : Escapes (isInvalidName value) ↔ isText value = false := by
  cases value <;> simp [isInvalidName, isText, escapes_ok, escapes_error, isCaught]

/-- Only a password or a name that is no text makes a check fail in a way of its own. -/
theorem escapes_postInit {pending : DecodedRegistration} :
    Escapes pending.postInit ↔ pending.emailCiphertext ≠ [] ∧
      lengthOf pending.emailLookupHash = .ok 64 ∧ (isText pending.passwordHash = false ∨
        startsWithArgon2id pending.passwordHash = .ok true ∧
          isText pending.displayName = false) := by
  unfold DecodedRegistration.postInit
  simp only [escapes_bind, escapes_require, escapes_lengthOf, escapes_startsWithArgon2id,
    escapes_isInvalidName, require_eq_ok, false_or, exists_const, decide_eq_true_eq,
    Bool.not_eq_true', List.isEmpty_eq_false_iff]
  constructor
  · rintro ⟨hciphertext, length, hlength, rfl, hpassword | ⟨starts, hstarts, rfl, hname | hlater⟩⟩
    · exact ⟨hciphertext, hlength, Or.inl hpassword⟩
    · exact ⟨hciphertext, hlength, Or.inr ⟨hstarts, hname⟩⟩
    · -- The counter is a number by then, and its check fails with a `ValueError`.
      obtain ⟨_, _, _, _, _, _, hcounted⟩ := hlater
      cases hattempts : integer? pending.attempts with
      | none =>
          rw [hattempts, escapes_error] at hcounted
          cases hcounted
      | some attempts =>
          rw [hattempts] at hcounted
          exact absurd hcounted (escapes_require _)
  · rintro ⟨hciphertext, hlength, hpassword | ⟨hstarts, hname⟩⟩
    · exact ⟨hciphertext, _, hlength, rfl, Or.inl hpassword⟩
    · exact ⟨hciphertext, _, hlength, rfl, Or.inr ⟨_, hstarts, rfl, Or.inl hname⟩⟩

theorem required_eq_ok {key : String} {found : Value} :
    required payload key = .ok found ↔ member? payload key = some found := by
  rw [required]
  cases member? payload key <;> simp [orRaise]

theorem escapes_required {key : String} : ¬ Escapes (required payload key) :=
  escapes_orRaise rfl _

/-- An object on which the decoder fails with an error of its own: a registration identifier that
is neither a text nor null, or, after everything that is looked at before, a password or a name that
is no text. -/
def Misread (payload : Members) : Prop :=
  ∃ bytes id,
    (required payload "email_ciphertext" >>= toBytes) = .ok bytes ∧
    (integer? ((member? payload "attempts").getD (.int 0))).isSome ∧
    member? payload "registration_id" = some id ∧
    (isText id = false ∧ id ≠ .null ∨
      ∃ uuid lookup password name code, toUUID id = .ok uuid ∧
        member? payload "email_lookup_hash" = some lookup ∧
        member? payload "password_hash" = some password ∧
        member? payload "display_name" = some name ∧
        member? payload "verification_code_hash" = some code ∧
        bytes ≠ [] ∧ lengthOf lookup = .ok 64 ∧
        (isText password = false ∨
          startsWithArgon2id password = .ok true ∧ isText name = false))

theorem except_bind_eq {attempt : Attempt α} {next : α → Attempt β} :
    attempt.bind next = (attempt >>= next) :=
  rfl

/-- The arguments of the constructor are evaluated from left to right. -/
theorem escapes_decodeRegistration {bytes : List UInt8} {attempts : Value} :
    Escapes (decodeRegistration payload bytes attempts) ↔
      ∃ id, member? payload "registration_id" = some id ∧
        (isText id = false ∧ id ≠ .null ∨
          ∃ uuid lookup password name code, toUUID id = .ok uuid ∧
            member? payload "email_lookup_hash" = some lookup ∧
            member? payload "password_hash" = some password ∧
            member? payload "display_name" = some name ∧
            member? payload "verification_code_hash" = some code ∧
            bytes ≠ [] ∧ lengthOf lookup = .ok 64 ∧
            (isText password = false ∨
              startsWithArgon2id password = .ok true ∧ isText name = false)) := by
  have hdone : ∀ result : DecodedRegistration, ¬ Escapes (pure result : Attempt _) := escapes_ok
  unfold decodeRegistration
  simp only [except_bind_eq, escapes_bind, escapes_required, bind_eq_ok, required_eq_ok,
    escapes_toUUID, escapes_postInit, hdone, false_or, or_false, and_false, exists_false]
  constructor
  · rintro (⟨id, hid, hstripped⟩ | ⟨uuid, ⟨id, hid, huuid⟩, lookup, hlookup, password, hpassword,
      name, hname, code, hcode, hchecks⟩)
    · exact ⟨id, hid, Or.inl hstripped⟩
    · exact ⟨id, hid, Or.inr ⟨uuid, lookup, password, name, code, huuid, hlookup, hpassword, hname,
        hcode, hchecks⟩⟩
  · rintro ⟨id, hid, hstripped | ⟨uuid, lookup, password, name, code, huuid, hlookup, hpassword,
      hname, hcode, hchecks⟩⟩
    · exact Or.inl ⟨id, hid, hstripped⟩
    · exact Or.inr ⟨uuid, ⟨id, hid, huuid⟩, lookup, hlookup, password, hpassword, name, hname,
        code, hcode, hchecks⟩

theorem escapes_decodePayload : Escapes (decodePayload payload) ↔ Misread payload := by
  have hdone : ∀ result : Option DecodedRegistration, ¬ Escapes (pure result : Attempt _) :=
    escapes_ok
  unfold decodePayload
  simp only [except_bind_eq, escapes_bind, escapes_required, escapes_toBytes, false_or, and_false,
    exists_false]
  constructor
  · rintro ⟨bytes, hbytes, hescapes⟩
    split_ifs at hescapes with hcounted
    · exact absurd hescapes (hdone none)
    · rw [escapes_bind] at hescapes
      obtain hescapes | ⟨made, _, hescapes⟩ := hescapes
      · obtain ⟨id, hid, hchecks⟩ := escapes_decodeRegistration.mp hescapes
        exact ⟨bytes, id, hbytes, Option.isSome_iff_ne_none.mpr (by simpa using hcounted), hid,
          hchecks⟩
      · exact absurd hescapes (hdone _)
  · rintro ⟨bytes, id, hbytes, hcounted, hid, hchecks⟩
    refine ⟨bytes, hbytes, ?_⟩
    rw [if_neg (by simpa [Option.isSome_iff_ne_none] using hcounted), escapes_bind]
    exact Or.inl (escapes_decodeRegistration.mpr ⟨id, hid, hchecks⟩)

/-- The object is taken for this value. -/
structure ReadAs (payload : Members) (pending : DecodedRegistration) : Prop where
  ciphertext : (required payload "email_ciphertext" >>= toBytes) = .ok pending.emailCiphertext
  registrationId : (required payload "registration_id" >>= toUUID) = .ok pending.registrationId
  emailLookupHash : member? payload "email_lookup_hash" = some pending.emailLookupHash
  passwordHash : member? payload "password_hash" = some pending.passwordHash
  displayName : member? payload "display_name" = some pending.displayName
  verificationCodeHash : member? payload "verification_code_hash" =
    some pending.verificationCodeHash
  attempts : (member? payload "attempts").getD (.int 0) = pending.attempts

/-- What the checks let through: texts as password and name, and anything of 64 items as either of
the hashes. -/
structure DecodedRegistration.Sound (pending : DecodedRegistration) : Prop where
  ciphertext : pending.emailCiphertext ≠ []
  lookup : lengthOf pending.emailLookupHash = .ok 64
  password : startsWithArgon2id pending.passwordHash = .ok true
  name : isInvalidName pending.displayName = .ok false
  code : lengthOf pending.verificationCodeHash = .ok 64
  attempts : ∃ count, integer? pending.attempts = some count ∧ 0 ≤ count ∧
    count ≤ maxVerificationAttempts

theorem postInit_eq_ok {pending : DecodedRegistration} {done : Unit} :
    pending.postInit = .ok done ↔ pending.Sound := by
  unfold DecodedRegistration.postInit
  simp only [bind_eq_ok, require_eq_ok, exists_const, decide_eq_true_eq, Bool.not_eq_true',
    List.isEmpty_eq_false_iff]
  constructor
  · rintro ⟨hciphertext, _, hlookup, rfl, _, hpassword, rfl, _, hname, rfl, _, hcode, rfl,
      hattempts⟩
    cases hcount : integer? pending.attempts with
    | none =>
        rw [hcount] at hattempts
        cases hattempts
    | some count =>
        rw [hcount] at hattempts
        exact ⟨hciphertext, hlookup, hpassword, hname, hcode, count, hcount,
          of_decide_eq_true (require_eq_ok.mp hattempts)⟩
  · rintro ⟨hciphertext, hlookup, hpassword, hname, hcode, count, hcount, hrange⟩
    refine ⟨hciphertext, _, hlookup, rfl, _, hpassword, rfl, _, hname, rfl, _, hcode, rfl, ?_⟩
    rw [hcount]
    exact require_eq_ok.mpr (decide_eq_true hrange)

theorem decodeRegistration_eq_ok {bytes : List UInt8} {attempts : Value}
    {pending : DecodedRegistration} :
    decodeRegistration payload bytes attempts = .ok pending ↔
      pending.emailCiphertext = bytes ∧ pending.attempts = attempts ∧
      (required payload "registration_id" >>= toUUID) = .ok pending.registrationId ∧
      member? payload "email_lookup_hash" = some pending.emailLookupHash ∧
      member? payload "password_hash" = some pending.passwordHash ∧
      member? payload "display_name" = some pending.displayName ∧
      member? payload "verification_code_hash" = some pending.verificationCodeHash ∧
      pending.Sound := by
  unfold decodeRegistration
  rw [bind_eq_ok]
  simp only [except_bind_eq, bind_eq_ok, required_eq_ok, postInit_eq_ok, exists_const]
  constructor
  · rintro ⟨uuid, huuid, lookup, hlookup, password, hpassword, name, hname, code, hcode, hsound,
      hsame⟩
    cases hsame
    exact ⟨rfl, rfl, huuid, hlookup, hpassword, hname, hcode, hsound⟩
  · rintro ⟨rfl, rfl, huuid, hlookup, hpassword, hname, hcode, hsound⟩
    exact ⟨_, huuid, _, hlookup, _, hpassword, _, hname, _, hcode, hsound, rfl⟩

theorem decodePayload_eq_some {pending : DecodedRegistration} :
    decodePayload payload = .ok (some pending) ↔ ReadAs payload pending ∧ pending.Sound := by
  unfold decodePayload
  rw [except_bind_eq, bind_eq_ok]
  constructor
  · rintro ⟨bytes, hbytes, hmade⟩
    dsimp only at hmade
    split_ifs at hmade with hcounted
    · cases hmade
    · obtain ⟨made, hmade, hsame⟩ := bind_eq_ok.mp hmade
      cases hsame
      obtain ⟨hciphertext, hattempts, huuid, hlookup, hpassword, hname, hcode, hsound⟩ :=
        decodeRegistration_eq_ok.mp hmade
      exact ⟨⟨hciphertext ▸ hbytes, huuid, hlookup, hpassword, hname, hcode, hattempts.symm⟩,
        hsound⟩
  · rintro ⟨hread, hsound⟩
    obtain ⟨count, hcount, _⟩ := hsound.attempts
    refine ⟨_, hread.ciphertext, ?_⟩
    dsimp only
    rw [hread.attempts, if_neg (by simp [hcount]), bind_eq_ok]
    exact ⟨pending, decodeRegistration_eq_ok.mpr ⟨rfl, rfl, hread.registrationId,
      hread.emailLookupHash, hread.passwordHash, hread.displayName, hread.verificationCodeHash,
      hsound⟩, rfl⟩

theorem orNone_eq_error {attempt : Attempt (Option α)} :
    (∃ error, orNone attempt = .error error) ↔ Escapes attempt := by
  cases attempt with
  | ok result => simp [orNone, escapes_ok]
  | error error => cases hcaught : isCaught error <;> simp [orNone, escapes_error, hcaught]

theorem orNone_eq_some {attempt : Attempt (Option α)} {result : α} :
    orNone attempt = .ok (some result) ↔ attempt = .ok (some result) := by
  cases attempt with
  | ok result => rfl
  | error error => cases hcaught : isCaught error <;> simp [orNone, hcaught]

theorem object?_eq_some {members : Members} :
    value.object? = some members ↔ value = .object members := by
  cases value <;> simp [Value.object?]

theorem escapes_loads {depth : Nat} {stored : Str} :
    Escapes (loads depth stored) ↔ loads depth stored = .error .recursionError := by
  constructor
  · rintro ⟨error, herror, hcaught⟩
    rcases scanFails_loads depth stored error herror with rfl | rfl
    · cases hcaught
    · exact herror
  · exact fun herror => ⟨_, herror, rfl⟩

/-- What becomes of any text in the store: which ones the decoder fails on, and what it makes of the
others. -/
theorem stored_registrations_decoded (depth : Nat) (stored : Str) :
    ((∃ error, fromJson depth stored = .error error) ↔
      loads depth stored = .error .recursionError ∨
        ∃ payload, loads depth stored = .ok (.object payload) ∧ Misread payload) ∧
    ∀ pending, fromJson depth stored = .ok (some pending) ↔
      ∃ payload, loads depth stored = .ok (.object payload) ∧ ReadAs payload pending ∧
        pending.Sound := by
  unfold fromJson
  constructor
  · rw [orNone_eq_error, escapes_bind, escapes_loads]
    refine or_congr_right ?_
    constructor
    · rintro ⟨value, hloads, hescapes⟩
      cases hobject : value.object? with
      | none =>
          rw [hobject] at hescapes
          exact absurd hescapes (escapes_ok none)
      | some payload =>
          rw [hobject] at hescapes
          exact ⟨payload, object?_eq_some.mp hobject ▸ hloads, escapes_decodePayload.mp hescapes⟩
    · rintro ⟨payload, hloads, hmisread⟩
      exact ⟨_, hloads, escapes_decodePayload.mpr hmisread⟩
  · intro pending
    rw [orNone_eq_some, bind_eq_ok]
    constructor
    · rintro ⟨value, hloads, hmade⟩
      cases hobject : value.object? with
      | none =>
          rw [hobject] at hmade
          cases hmade
      | some payload =>
          rw [hobject] at hmade
          exact ⟨payload, object?_eq_some.mp hobject ▸ hloads, decodePayload_eq_some.mp hmade⟩
    · rintro ⟨payload, hloads, hread⟩
      exact ⟨_, hloads, decodePayload_eq_some.mpr hread⟩

end Decoding

end MuxivoConsole
