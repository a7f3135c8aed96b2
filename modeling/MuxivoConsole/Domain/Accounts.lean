/-
First-party identity entities, the audit facts that every use case emits, and
the principal of a browser session.
-/
import MuxivoConsole.Domain.Organizations

namespace MuxivoConsole

inductive UserStatus where
  | pendingVerification
  | active
  | suspended
  | deleted
  deriving DecidableEq

inductive LoginIdentityProvider where
  | email
  | discord
  | twitch
  | telegram
  | google
  | yandex
  deriving DecidableEq

instance : StrEnum LoginIdentityProvider where
  members := [.email, .discord, .twitch, .telegram, .google, .yandex]
  value
    | .email => "email"
    | .discord => "discord"
    | .twitch => "twitch"
    | .telegram => "telegram"
    | .google => "google"
    | .yandex => "yandex"
  complete := by rintro ⟨⟩ <;> decide
  distinct := by decide

structure UserFields where
  id : UUID
  status : UserStatus
  displayName : String
  deriving DecidableEq

def UserFields.postInit (user : UserFields) : Option String :=
  if isBlank user.displayName || user.displayName.length > 64 then
    some "Display name must contain 1 to 64 non-blank characters."
  else none

abbrev User := Validated UserFields.postInit

structure LoginIdentityFields where
  id : UUID
  userId : UUID
  provider : LoginIdentityProvider
  providerSubject : String
  deriving DecidableEq

def LoginIdentityFields.postInit (identity : LoginIdentityFields) : Option String :=
  if identity.providerSubject.length = 0 || identity.providerSubject.length > 255 then
    some "Provider subject must contain 1 to 255 characters."
  else none

abbrev LoginIdentity := Validated LoginIdentityFields.postInit

structure UserEmailFields where
  id : UUID
  userId : UUID
  ciphertext : List UInt8
  lookupHash : String
  isPrimary : Bool := true
  deriving DecidableEq

def UserEmailFields.postInit (email : UserEmailFields) : Option String :=
  if email.ciphertext.isEmpty then
    some "Email ciphertext must not be empty."
  else if email.lookupHash.length ≠ 64 then
    some "Email lookup hash must be a SHA-256-sized hex digest."
  else none

abbrev UserEmail := Validated UserEmailFields.postInit

/-- `password_hash.startswith("$argon2id$")` -/
def isArgon2id (passwordHash : String) : Bool :=
  "$argon2id$".toList.isPrefixOf passwordHash.toList

structure PasswordCredentialFields where
  userId : UUID
  passwordHash : String
  deriving DecidableEq

def PasswordCredentialFields.postInit (credential : PasswordCredentialFields) :
    Option String :=
  if isArgon2id credential.passwordHash then none
  else some "Password credential must use Argon2id."

abbrev PasswordCredential := Validated PasswordCredentialFields.postInit

structure EmailPasswordRegistrationFields where
  user : User
  identity : LoginIdentity
  email : UserEmail
  passwordCredential : PasswordCredential
  deriving DecidableEq

def EmailPasswordRegistrationFields.postInit
    (registration : EmailPasswordRegistrationFields) : Option String :=
  let userId := registration.user.fields.id
  if registration.identity.fields.userId ≠ userId ∨
      registration.email.fields.userId ≠ userId ∨
      registration.passwordCredential.fields.userId ≠ userId then
    some "Email/password registration records must belong to one user."
  else if registration.identity.fields.provider ≠ .email then
    some "Email/password registration must create an email identity."
  else none

/-- The data set that creates an account. -/
abbrev EmailPasswordRegistration := Validated EmailPasswordRegistrationFields.postInit

/-- The values that the audit table's check constraint admits. -/
inductive AuditResult where
  | allowed
  | denied
  | succeeded
  | failed
  deriving DecidableEq

/-- A secret-free audit fact; its action and resource type are never empty. -/
structure AuditEvent where
  id : UUID
  correlationId : UUID
  actorId : Option UUID
  organizationId : Option UUID
  action : String
  resourceType : String
  resourceId : Option String
  result : AuditResult
  named : action ≠ "" ∧ resourceType ≠ "" := by decide
  deriving DecidableEq

inductive SessionAssuranceLevel where
  | password
  | recentAuthentication
  deriving DecidableEq

structure BrowserSessionPrincipal where
  userId : UUID
  sessionId : UUID
  assuranceLevel : SessionAssuranceLevel
  authenticatedAt : Option Instant := none
  deriving DecidableEq

end MuxivoConsole
