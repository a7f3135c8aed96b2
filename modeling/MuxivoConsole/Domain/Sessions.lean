/-
Server-side browser sessions, password recovery transactions and registrations
that wait for their code.  Raw tokens and codes occur nowhere here, only their
hashes.
-/
import MuxivoConsole.Domain.Accounts

namespace MuxivoConsole

instance : StrEnum SessionAssuranceLevel where
  members := [.password, .recentAuthentication]
  value
    | .password => "password"
    | .recentAuthentication => "recent_authentication"
  complete := by rintro ⟨⟩ <;> decide
  distinct := by decide

structure AuthSessionFields where
  id : UUID
  userId : UUID
  tokenHash : String
  expiresAt : Instant
  assuranceLevel : SessionAssuranceLevel
  revokedAt : Option Instant := none
  authenticatedAt : Option Instant := none
  lastSeenAt : Option Instant := none
  ipHash : Option String := none
  userAgentHash : Option String := none
  deriving DecidableEq

def AuthSessionFields.postInit (session : AuthSessionFields) : Option String :=
  if session.tokenHash.length ≠ 64 then
    some "Session token hash must be a SHA-256-sized hex digest."
  else if session.ipHash.any (·.length ≠ 64) then
    some "Session IP hash must be a SHA-256-sized hex digest."
  else if session.userAgentHash.any (·.length ≠ 64) then
    some "Session user-agent hash must be a SHA-256-sized hex digest."
  else none

abbrev AuthSession := Validated AuthSessionFields.postInit

/-- `AuthSession.is_active_at` -/
def AuthSessionFields.isActiveAt (session : AuthSessionFields) (instant : Instant) : Bool :=
  session.revokedAt.isNone && decide (instant < session.expiresAt)

structure PasswordRecoveryTransactionFields where
  id : UUID
  userId : UUID
  tokenHash : String
  expiresAt : Instant
  consumedAt : Option Instant := none
  deriving DecidableEq

def PasswordRecoveryTransactionFields.postInit
    (transaction : PasswordRecoveryTransactionFields) : Option String :=
  if transaction.tokenHash.length ≠ 64 then
    some "Password recovery token hash must be SHA-256-sized."
  else none

abbrev PasswordRecoveryTransaction := Validated PasswordRecoveryTransactionFields.postInit

structure EmailPasswordAccountFields where
  userId : UUID
  status : UserStatus
  passwordHash : String
  deriving DecidableEq

def EmailPasswordAccountFields.postInit (account : EmailPasswordAccountFields) :
    Option String :=
  if isArgon2id account.passwordHash then none
  else some "Email/password account must hold an Argon2id credential."

/-- What a password check needs of an account; never its address. -/
abbrev EmailPasswordAccount := Validated EmailPasswordAccountFields.postInit

/-- A linked identity as its owner may see it. -/
structure LoginIdentityProfile where
  id : UUID
  userId : UUID
  provider : LoginIdentityProvider
  deriving DecidableEq

/-- `MAX_VERIFICATION_ATTEMPTS` -/
def maxVerificationAttempts : Int := 5

structure PendingEmailPasswordRegistrationFields where
  registrationId : UUID
  emailCiphertext : List UInt8
  emailLookupHash : String
  passwordHash : String
  displayName : String
  verificationCodeHash : String
  attempts : Int := 0
  deriving DecidableEq

def PendingEmailPasswordRegistrationFields.postInit
    (pending : PendingEmailPasswordRegistrationFields) : Option String :=
  if pending.emailCiphertext.isEmpty then
    some "Pending registration email ciphertext must not be empty."
  else if pending.emailLookupHash.length ≠ 64 then
    some "Pending registration email lookup hash is invalid."
  else if !isArgon2id pending.passwordHash then
    some "Pending registration password must use Argon2id."
  else if isBlank pending.displayName || pending.displayName.length > 64 then
    some "Pending registration display name is invalid."
  else if pending.verificationCodeHash.length ≠ 64 then
    some "Pending registration code hash is invalid."
  else if ¬ (0 ≤ pending.attempts ∧ pending.attempts ≤ maxVerificationAttempts) then
    some "Pending registration attempts are invalid."
  else none

/-- A started registration; the address is encrypted, the password and the code
are hashed. -/
abbrev PendingEmailPasswordRegistration :=
  Validated PendingEmailPasswordRegistrationFields.postInit

/-- `with_attempts` -/
def PendingEmailPasswordRegistrationFields.withAttempts
    (pending : PendingEmailPasswordRegistrationFields) (attempts : Int) :
    Except String PendingEmailPasswordRegistration :=
  Validated.make _ { pending with attempts }

/-- The failed-attempt counter of a valid value is in range. -/
theorem PendingEmailPasswordRegistration.attempts_bounds
    (pending : PendingEmailPasswordRegistration) :
    0 ≤ pending.fields.attempts ∧ pending.fields.attempts ≤ maxVerificationAttempts := by
  by_contra hout
  have haccepted := pending.accepted
  unfold PendingEmailPasswordRegistrationFields.postInit at haccepted
  rw [if_pos hout] at haccepted
  split_ifs at haccepted

end MuxivoConsole
