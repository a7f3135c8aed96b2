/-
Use cases for browser sessions: sign in, resolve, list, reauthenticate, revoke
and clean up.
-/
import MuxivoConsole.Application.Registration

namespace MuxivoConsole

open Interleaving

structure AuthenticateEmailPasswordCommand where
  email : String
  password : String
  correlationId : UUID
  clientIp : Option String := none
  userAgent : Option String := none
  deriving DecidableEq

structure CreateBrowserSessionCommand where
  userId : UUID
  correlationId : UUID
  assuranceLevel : SessionAssuranceLevel := .password
  clientIp : Option String := none
  userAgent : Option String := none
  deriving DecidableEq

structure IssuedBrowserSession where
  id : UUID
  rawToken : String
  rawCsrfToken : String
  expiresAt : Instant
  assuranceLevel : SessionAssuranceLevel
  deriving DecidableEq

structure ListBrowserSessionsCommand where
  actorId : UUID
  currentSessionId : UUID
  correlationId : UUID
  deriving DecidableEq

structure BrowserSessionSecurityView where
  session : AuthSession
  isCurrent : Bool
  deriving DecidableEq

structure ReauthenticateBrowserSessionCommand where
  principal : BrowserSessionPrincipal
  currentPassword : String
  correlationId : UUID
  deriving DecidableEq

/-- The keyword arguments of `RevokeBrowserSession.execute`. -/
structure RevokeBrowserSessionCommand where
  userId : UUID
  sessionId : UUID
  correlationId : UUID
  deriving DecidableEq

structure RevokeAllBrowserSessionsCommand where
  principal : BrowserSessionPrincipal
  correlationId : UUID
  deriving DecidableEq

/-- Retention periods in microseconds. -/
structure CleanupSecurityRecordsCommand where
  sessionRetention : Nat := 30 * 24 * 60 * 60 * 1000000
  passwordRecoveryRetention : Nat := 24 * 60 * 60 * 1000000
  deriving DecidableEq

structure CleanupSecurityRecordsResult where
  deletedSessions : Nat
  deletedPasswordRecoveryTransactions : Nat
  deriving DecidableEq

/-- `lifetime`: fourteen days. -/
def sessionLifetime : Nat :=
  14 * 24 * 60 * 60 * 1000000

/-- `last_seen_update_interval`: five minutes. -/
def lastSeenUpdateInterval : Nat :=
  5 * 60 * 1000000

/-- `_last_seen_requires_update` with the interval above; the difference of two
instants may be negative. -/
def lastSeenRequiresUpdate (lastSeenAt : Option Instant) (now : Instant) : Bool :=
  match lastSeenAt with
  | none => true
  | some lastSeenAt => decide (lastSeenAt + lastSeenUpdateInterval ≤ now)

/-- `_fingerprint_ip` and `_fingerprint_user_agent` -/
def fingerprint (hasher : String → String) (text : Option String) : Option String :=
  let value := strip (text.getD "")
  if value = "" then none else some (hasher value)

/-- An audit fact of a session action, which always succeeded. -/
def sessionAudit (id correlationId actorId : UUID) (action resourceId : String)
    (named : action ≠ "" ∧ "auth_session" ≠ "") : AuditEvent where
  id := id
  correlationId := correlationId
  actorId := some actorId
  organizationId := none
  action := action
  resourceType := "auth_session"
  resourceId := some resourceId
  result := .succeeded
  named := named

namespace AuthUseCase

/-- `SqlAlchemyAuthSessionWriter.create` -/
def createSession (session : AuthSession) (createdAt : Instant) (auditEvent : AuditEvent) :
    AuthUseCase Bool := do
  let created ← transact (.createSession
    { id := session.fields.id
      userId := session.fields.userId
      tokenHash := session.fields.tokenHash
      expiresAt := session.fields.expiresAt
      revokedAt := session.fields.revokedAt
      assuranceLevel := StrEnum.value session.fields.assuranceLevel
      ipHash := session.fields.ipHash
      userAgentHash := session.fields.userAgentHash
      lastSeenAt := session.fields.lastSeenAt
      createdAt } auditEvent)
  pure (created == some true)

/-- `CreateBrowserSession.execute` -/
def createBrowserSession (ports : AuthPorts) (command : CreateBrowserSessionCommand) :
    AuthUseCase IssuedBrowserSession := do
  let status ← getUserStatus command.userId
  if status ≠ some .active then
    Execution.raise ⟨.sessionCreationRejected,
      "The user is not allowed to create a session."⟩
  else
    let now ← now
    let rawToken ← issueToken
    let rawCsrfToken ← issueToken
    let id ← newIdentifier
    let session ← orValueError (Validated.make AuthSessionFields.postInit
      { id
        userId := command.userId
        tokenHash := ports.hashToken rawToken
        expiresAt := now + sessionLifetime
        assuranceLevel := command.assuranceLevel
        authenticatedAt := some now
        lastSeenAt := some now
        ipHash := fingerprint ports.hashIpAddress command.clientIp
        userAgentHash := fingerprint ports.hashUserAgent command.userAgent })
    let auditId ← newIdentifier
    let created ← createSession session now
      (sessionAudit auditId command.correlationId command.userId "auth.session_created"
        session.fields.id.str (by decide))
    if !created then
      Execution.raise ⟨.sessionCreationRejected, "The session could not be created."⟩
    else
      pure {
        id := session.fields.id
        rawToken
        rawCsrfToken
        expiresAt := session.fields.expiresAt
        assuranceLevel := session.fields.assuranceLevel }

/-- `AuthenticationRejectedError` -/
def rejectAuthentication {α : Type} : AuthUseCase α :=
  Execution.raise ⟨.authenticationRejected, "Authentication could not be completed."⟩

/-- `AuthenticateEmailPassword.execute` -/
def authenticateEmailPassword (ports : AuthPorts)
    (command : AuthenticateEmailPasswordCommand) : AuthUseCase IssuedBrowserSession := do
  match ports.normalizeEmail command.email with
  | none => do
      let _ ← hashPassword command.password
      rejectAuthentication
  | some normalizedEmail => do
      let account ← Execution.select fun store : AuthStore =>
        store.database.accountByEmailLookupHash (ports.lookupHash normalizedEmail)
      match account with
      | none => do
          let _ ← hashPassword command.password
          rejectAuthentication
      | some account =>
          if !ports.verifyPassword account.fields.passwordHash command.password ||
              account.fields.status != .active then rejectAuthentication
          else do
            let issued ← (createBrowserSession ports
              { userId := account.fields.userId
                correlationId := command.correlationId
                assuranceLevel := .recentAuthentication
                clientIp := command.clientIp
                userAgent := command.userAgent }).attempt
            match issued with
            | .ok issued => pure issued
            | .error failure =>
                if failure.errorClass = .sessionCreationRejected then rejectAuthentication
                else Execution.raise failure

/-- `_touch_last_seen`; the answer is only logged. -/
def touchLastSeen (session : AuthSession) (now : Instant) : AuthUseCase Unit :=
  if !lastSeenRequiresUpdate session.fields.lastSeenAt now then pure ()
  else do
    let _ ← transact (.touchLastSeen session.fields.id session.fields.userId now)
    pure ()

/-- `ResolveBrowserSession.execute` -/
def resolveBrowserSession (ports : AuthPorts) (rawToken : String) :
    AuthUseCase (Option BrowserSessionPrincipal) := do
  if !isUsableToken rawToken then pure none
  else
    let session ← Execution.select fun store : AuthStore =>
      store.database.sessionByTokenHash (ports.hashToken rawToken)
    let now ← now
    match session with
    | none => pure none
    | some session =>
        if !session.fields.isActiveAt now then pure none
        else
          let status ← getUserStatus session.fields.userId
          if status ≠ some .active then pure none
          else
            touchLastSeen session now
            pure (some {
              userId := session.fields.userId
              sessionId := session.fields.id
              assuranceLevel := session.fields.assuranceLevel
              authenticatedAt := session.fields.authenticatedAt })

/-- `ListBrowserSessions.execute` -/
def listBrowserSessions (command : ListBrowserSessionsCommand) :
    AuthUseCase (List BrowserSessionSecurityView) := do
  let status ← getUserStatus command.actorId
  if status ≠ some .active then
    Execution.raise ⟨.browserSessionListRejected, "Access denied."⟩
  else
    let activeAt ← now
    let sessions ← Execution.select fun store : AuthStore =>
      store.database.activeSessions command.actorId activeAt
    pure (sessions.map fun session =>
      { session, isCurrent := session.fields.id == command.currentSessionId })

/-- `BrowserSessionReauthenticationRejectedError` -/
def rejectReauthentication {α : Type} : AuthUseCase α :=
  Execution.raise ⟨.browserSessionReauthenticationRejected, "Reauthentication failed."⟩

/-- `ReauthenticateBrowserSession.execute` -/
def reauthenticateBrowserSession (ports : AuthPorts)
    (command : ReauthenticateBrowserSessionCommand) : AuthUseCase Unit := do
  let actorId := command.principal.userId
  let status ← getUserStatus actorId
  if status ≠ some .active then rejectReauthentication
  else
    let credential ← Execution.select fun store : AuthStore =>
      store.database.credentialForUser actorId
    match credential with
    | none => do
        let _ ← hashPassword command.currentPassword
        rejectReauthentication
    | some credential =>
        if !ports.verifyPassword credential.fields.passwordHash command.currentPassword then
          rejectReauthentication
        else
          let authenticatedAt ← now
          let auditId ← newIdentifier
          let reauthenticated ← transactOrRaise (.reauthenticate command.principal.sessionId
            actorId authenticatedAt
            (sessionAudit auditId command.correlationId actorId "auth.session_reauthenticated"
              command.principal.sessionId.str (by decide)))
          if reauthenticated = true then pure () else rejectReauthentication

/-- `RevokeBrowserSession.execute` -/
def revokeBrowserSession (command : RevokeBrowserSessionCommand) : AuthUseCase Unit := do
  let revokedAt ← now
  let auditId ← newIdentifier
  let revoked ← transactOrRaise (.revoke command.sessionId command.userId revokedAt
    (sessionAudit auditId command.correlationId command.userId "auth.session_revoked"
      command.sessionId.str (by decide)))
  if revoked = true then pure ()
  else Execution.raise ⟨.permissionError, "Current session could not be revoked."⟩

/-- `RevokeAllBrowserSessions.execute` -/
def revokeAllBrowserSessions (command : RevokeAllBrowserSessionsCommand) :
    AuthUseCase Nat := do
  requireRecentAuthentication command.principal
  let revokedAt ← now
  let auditId ← newIdentifier
  let revokedCount ← transactOrRaise (.revokeAllForUser command.principal.userId revokedAt
    (sessionAudit auditId command.correlationId command.principal.userId
      "auth.sessions_revoked" command.principal.sessionId.str (by decide)))
  if (show Nat from revokedCount) < 1 then
    Execution.raise ⟨.browserSessionBulkRevocationRejected, "No active sessions were revoked."⟩
  else pure revokedCount

/-- `CleanupSecurityRecords.execute`; an instant before the first one there is
raises. -/
def cleanupSecurityRecords (command : CleanupSecurityRecordsCommand) :
    AuthUseCase CleanupSecurityRecordsResult := do
  let now ← now
  if now < command.sessionRetention ∨ now < command.passwordRecoveryRetention then
    Execution.raise ⟨.overflowError, "date value out of range"⟩
  else
    let deletedSessions ← transactOrRaise
      (.deleteExpiredOrRevokedSessions (now - command.sessionRetention))
    let deletedPasswordRecoveryTransactions ← transactOrRaise
      (.deleteConsumedOrExpiredPasswordRecoveryTransactions
        (now - command.passwordRecoveryRetention))
    pure { deletedSessions, deletedPasswordRecoveryTransactions }

end AuthUseCase

end MuxivoConsole
