/-
What an execution around accounts has to have read before it asks for a
transaction or a Redis command, and what an answer of it rests on.
-/
import MuxivoConsole.Application.AuthSystem
import MuxivoConsole.Interleaving.Discipline

namespace MuxivoConsole

open Interleaving

/-- The first read of the execution. -/
def FirstRead (history : AuthHistory) (moment : Nat) (store : AuthStore) : Prop :=
  (reads history).head? = some (moment, store)

/-- The latest read of the execution. -/
def LastRead (history : AuthHistory) (moment : Nat) (store : AuthStore) : Prop :=
  (reads history).getLast? = some (moment, store)

/-- The clock readings of an execution, oldest first. -/
def readings (history : AuthHistory) : List Instant :=
  history.filterMap fun observation =>
    match observation with
    | .heard (.console .now) now => some now
    | _ => none

/-- The first clock reading of the execution. -/
def FirstNow (history : AuthHistory) (now : Instant) : Prop :=
  (readings history).head? = some now

/-- The execution has asked for no write yet. -/
def Unwritten (history : AuthHistory) : Prop :=
  ∀ write saved, Observation.wrote write saved ∉ history

namespace AuthStore

/-- The value of a registration flow, as stored and decoded. -/
def pendingOf (ports : AuthPorts) (rawToken : String) (store : AuthStore) :
    Option (String × PendingEmailPasswordRegistration) :=
  match store.tokens.get (registrationKey ports rawToken) with
  | none => none
  | some value => if value = "" then none else (ports.fromJson value).map (value, ·)

/-- The pending value against which a verification compares its code and finds it
wrong. -/
def wrongGuess (ports : AuthPorts) (command : VerifyEmailPasswordRegistrationCommand)
    (store : AuthStore) : Option PendingEmailPasswordRegistration :=
  match store.pendingOf ports command.token with
  | none => none
  | some (_, pending) =>
      if pending.fields.attempts ≥ maxVerificationAttempts then none
      else if registrationCodeHash ports command.token command.code ≠
          pending.fields.verificationCodeHash then some pending
      else none

end AuthStore

section Grounds

variable (ports : AuthPorts)

/-- A verification counts the wrong guess that it read. -/
structure MayCount (command : VerifyEmailPasswordRegistrationCommand) (history : AuthHistory)
    (counted : PendingEmailPasswordRegistration) : Prop where
  read : ∃ moment store pending, FirstRead history moment store ∧
    store.wrongGuess ports command = some pending ∧
      counted.fields.attempts = min maxVerificationAttempts (pending.fields.attempts + 1)
  first : Unwritten history

/-- A resend puts a new code in place of the one that it read. -/
structure MayRotate (command : ResendEmailPasswordRegistrationCommand) (history : AuthHistory)
    (rotated : PendingEmailPasswordRegistration) : Prop where
  read : ∃ moment store value pending, FirstRead history moment store ∧
    store.pendingOf ports command.token = some (value, pending) ∧
      rotated.fields.attempts = pending.fields.attempts

/-- A sign-in creates a session of the account whose password it checked. -/
structure MayCreateSession (command : AuthenticateEmailPasswordCommand)
    (history : AuthHistory) (session : AuthSessionRecord) : Prop where
  proved : ∃ moment store normalizedEmail account, FirstRead history moment store ∧
    ports.normalizeEmail command.email = some normalizedEmail ∧
      store.database.accountByEmailLookupHash (ports.lookupHash normalizedEmail) =
        some account ∧
        ports.verifyPassword account.fields.passwordHash command.password = true ∧
          account.fields.userId = session.userId
  fresh : session.id ∈ held history

/-- A password change proved the current password of its actor. -/
structure MayChangePassword (command : ChangeEmailPasswordCommand) (history : AuthHistory) :
    Prop where
  proved : ∃ moment store credential, LastRead history moment store ∧
    store.database.credentialForUser command.principal.userId = some credential ∧
      ports.verifyPassword credential.fields.passwordHash command.currentPassword = true

/-- The rows of one e-mail account. -/
structure RegistersAccount (user : UserRecord) (identity : LoginIdentityRecord)
    (credential : PasswordCredentialRecord) : Prop where
  identityUser : identity.userId = user.id
  identityProvider : identity.provider = StrEnum.value LoginIdentityProvider.email
  credentialUser : credential.userId = user.id

/-- What each use case may ask for, given its history. -/
inductive AuthJustified : AuthRequest → AuthHistory → Action auth → Prop
  | call {request history called} : AuthJustified request history (.call called)
  | startFlow {command history rawToken value} :
      AuthJustified (.startEmailPasswordRegistration command) history
        (.commit (.put (registrationKey ports rawToken) value verificationLifetimeSeconds))
  | discardStarted {command history key value} :
      AuthJustified (.startEmailPasswordRegistration command) history
        (.commit (.consume key value))
  | rotate {command history rotated} (hmay : MayRotate ports command history rotated) :
      AuthJustified (.resendEmailPasswordRegistration command) history
        (.commit (.replace (registrationKey ports command.token) (ports.toJson rotated)
          verificationLifetimeSeconds))
  | discardRotated {command history value} :
      AuthJustified (.resendEmailPasswordRegistration command) history
        (.commit (.consume (registrationKey ports command.token) value))
  | count {command history counted} (hmay : MayCount ports command history counted) :
      AuthJustified (.verifyEmailPasswordRegistration command) history
        (.commit (.replace (registrationKey ports command.token) (ports.toJson counted)
          verificationLifetimeSeconds))
  | accept {command history value moment store} (hread : FirstRead history moment store)
      (hright : store.wrongGuess ports command = none) :
      AuthJustified (.verifyEmailPasswordRegistration command) history
        (.commit (.consume (registrationKey ports command.token) value))
  | register {command history user identity email credential auditEvent moment store}
      (hread : FirstRead history moment store)
      (hright : store.wrongGuess ports command = none)
      (hrows : RegistersAccount user identity credential) :
      AuthJustified (.verifyEmailPasswordRegistration command) history
        (.commit (.console (.register user identity email credential auditEvent)))
  | createSession {command history session auditEvent}
      (hmay : MayCreateSession ports command history session) :
      AuthJustified (.authenticateEmailPassword command) history
        (.commit (.account (.createSession session auditEvent)))
  | touch {rawToken history sessionId userId lastSeenAt}
      (hnow : FirstNow history lastSeenAt) :
      AuthJustified (.resolveBrowserSession rawToken) history
        (.commit (.account (.touchLastSeen sessionId userId lastSeenAt)))
  | reauthenticate {command history authenticatedAt auditEvent}
      (hnow : FirstNow history authenticatedAt) :
      AuthJustified (.reauthenticateBrowserSession command) history
        (.commit (.account (.reauthenticate command.principal.sessionId
          command.principal.userId authenticatedAt auditEvent)))
  | revoke {command history revokedAt auditEvent} :
      AuthJustified (.revokeBrowserSession command) history
        (.commit (.account (.revoke command.sessionId command.userId revokedAt auditEvent)))
  | revokeAll {command history revokedAt auditEvent} :
      AuthJustified (.revokeAllBrowserSessions command) history
        (.commit (.account (.revokeAllForUser command.principal.userId revokedAt auditEvent)))
  | deleteSessions {command history now} :
      AuthJustified (.cleanupSecurityRecords command) history
        (.commit (.account (.deleteExpiredOrRevokedSessions (now - command.sessionRetention))))
  | deleteRecoveries {command history now} :
      AuthJustified (.cleanupSecurityRecords command) history
        (.commit (.account (.deleteConsumedOrExpiredPasswordRecoveryTransactions
          (now - command.passwordRecoveryRetention))))
  | putReference {command history tokenHash value} :
      AuthJustified (.requestPasswordRecovery command) history
        (.commit (.put (recoveryKey tokenHash) value recoveryLifetimeSeconds))
  | createRecovery {command history transaction auditEvent} :
      AuthJustified (.requestPasswordRecovery command) history
        (.commit (.account (.createRecovery transaction auditEvent)))
  | discardReference {command history tokenHash value} :
      AuthJustified (.requestPasswordRecovery command) history
        (.commit (.consume (recoveryKey tokenHash) value))
  | completeRecovery {command history passwordHash completedAt auditId} :
      AuthJustified (.completePasswordRecovery command) history
        (.commit (.account (.completeRecovery (ports.hashToken command.token) passwordHash
          completedAt auditId command.correlationId)))
  | consumeReference {command history tokenHash value} :
      AuthJustified (.completePasswordRecovery command) history
        (.commit (.consume (recoveryKey tokenHash) value))
  | changePassword {command history passwordHash changedAt auditEvent}
      (hmay : MayChangePassword ports command history) :
      AuthJustified (.changeEmailPassword command) history
        (.commit (.account (.changePassword command.principal.userId passwordHash changedAt
          auditEvent)))
  | link {command history identity auditEvent}
      (hprovider : identity.provider ≠ StrEnum.value LoginIdentityProvider.email) :
      AuthJustified (.linkVerifiedIdentity command) history
        (.commit (.account (.link identity auditEvent)))
  | unlink {command history identityId auditEvent} :
      AuthJustified (.unlinkLoginIdentity command) history
        (.commit (.account (.unlink identityId command.principal.userId auditEvent)))
  | elapse {duration history} :
      AuthJustified (.elapse duration) history (.commit (.elapse duration))

/-- A principal that a resolution returns rests on a session row that it read and
found active at the reading of its own clock. -/
def Resolved (rawToken : String) (history : AuthHistory)
    (principal : BrowserSessionPrincipal) : Prop :=
  ∃ moment store session now, FirstRead history moment store ∧ FirstNow history now ∧
    store.database.sessionByTokenHash (ports.hashToken rawToken) = some session ∧
      session.fields.isActiveAt now = true ∧ principal.sessionId = session.fields.id ∧
        principal.userId = session.fields.userId

/-- A listing is what one statement selected at the reading of the own clock. -/
def Listed (command : ListBrowserSessionsCommand) (history : AuthHistory)
    (views : List BrowserSessionSecurityView) : Prop :=
  ∃ moment store activeAt, LastRead history moment store ∧ FirstNow history activeAt ∧
    views.map (·.session) = store.database.activeSessions command.actorId activeAt

/-- What the answers of the two reading use cases rest on. -/
def AuthAnswered : AuthRequest → AuthHistory → AuthOutcome → Prop
  | .resolveBrowserSession rawToken, history, .principal (some principal) =>
      Resolved ports rawToken history principal
  | .listBrowserSessions command, history, .sessions views => Listed command history views
  | _, _, _ => True

end Grounds

end MuxivoConsole
