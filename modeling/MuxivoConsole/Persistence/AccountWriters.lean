/-
The write transactions on sessions, credentials, recoveries and identities.  A
transaction block returns a value, and an early `return` inside it raises
nothing, so it commits what was done until then; only an `IntegrityError` rolls
back.
-/
import MuxivoConsole.Persistence.Writers

namespace MuxivoConsole

open Relational

inductive AccountWrite where
  /-- `SqlAlchemyAuthSessionWriter.create` -/
  | createSession (session : AuthSessionRecord) (auditEvent : AuditEvent)
  /-- `SqlAlchemyAuthSessionRevoker.revoke` -/
  | revoke (sessionId userId : UUID) (revokedAt : Instant) (auditEvent : AuditEvent)
  /-- `SqlAlchemyAuthSessionRevoker.revoke_all_for_user` -/
  | revokeAllForUser (userId : UUID) (revokedAt : Instant) (auditEvent : AuditEvent)
  /-- `SqlAlchemyAuthSessionReauthenticationWriter.reauthenticate` -/
  | reauthenticate (sessionId userId : UUID) (authenticatedAt : Instant)
      (auditEvent : AuditEvent)
  /-- `SqlAlchemyAuthSessionLastSeenUpdater.touch_last_seen` -/
  | touchLastSeen (sessionId userId : UUID) (lastSeenAt : Instant)
  /-- `SqlAlchemyPasswordRecoveryRepository.create` -/
  | createRecovery (transaction : PasswordRecoveryTransactionRecord) (auditEvent : AuditEvent)
  /-- `SqlAlchemyPasswordRecoveryRepository.complete` -/
  | completeRecovery (tokenHash passwordHash : String) (completedAt : Instant)
      (auditId correlationId : UUID)
  /-- `SqlAlchemyPasswordCredentialRepository.change_password` -/
  | changePassword (userId : UUID) (passwordHash : String) (changedAt : Instant)
      (auditEvent : AuditEvent)
  /-- `SqlAlchemyLoginIdentityLinkWriter.link` -/
  | link (identity : LoginIdentityRecord) (auditEvent : AuditEvent)
  /-- `SqlAlchemyLoginIdentityUnlinkWriter.unlink` -/
  | unlink (identityId userId : UUID) (auditEvent : AuditEvent)
  /-- `delete_expired_or_revoked_sessions` -/
  | deleteExpiredOrRevokedSessions (before : Instant)
  /-- `delete_consumed_or_expired_password_recovery_transactions` -/
  | deleteConsumedOrExpiredPasswordRecoveryTransactions (before : Instant)
  deriving DecidableEq

namespace AuthSessionRecord

/-- `user_id == ... , revoked_at IS NULL, expires_at > now` -/
def activeFor (row : AuthSessionRecord) (userId : UUID) (now : Instant) : Bool :=
  row.userId == userId && row.revokedAt.isNone && decide (row.expiresAt > now)

/-- `id == ... , user_id == ... , revoked_at IS NULL, expires_at > now` -/
def activeAs (row : AuthSessionRecord) (sessionId userId : UUID) (now : Instant) : Bool :=
  row.id == sessionId && row.activeFor userId now

/-- `id == ... , user_id == ... , revoked_at IS NULL` -/
def unrevokedAs (row : AuthSessionRecord) (sessionId userId : UUID) : Bool :=
  row.id == sessionId && row.userId == userId && row.revokedAt.isNone

/-- `expires_at < before OR revoked_at < before` -/
def expiredOrRevoked (row : AuthSessionRecord) (before : Instant) : Bool :=
  decide (row.expiresAt < before) || row.revokedAt.any (decide <| · < before)

end AuthSessionRecord

namespace PasswordRecoveryTransactionRecord

/-- `token_hash == ... , consumed_at IS NULL, expires_at > now` -/
def openAt (row : PasswordRecoveryTransactionRecord) (tokenHash : String) (now : Instant) :
    Bool :=
  row.tokenHash == tokenHash && row.consumedAt.isNone && decide (row.expiresAt > now)

/-- `expires_at < before OR consumed_at < before` -/
def consumedOrExpired (row : PasswordRecoveryTransactionRecord) (before : Instant) : Bool :=
  decide (row.expiresAt < before) || row.consumedAt.any (decide <| · < before)

end PasswordRecoveryTransactionRecord

/-- `.values(password_hash=..., password_changed_at=..., failed_attempts=0, locked_until=None)` -/
def PasswordCredentialRecord.rotated (row : PasswordCredentialRecord) (passwordHash : String)
    (changedAt : Instant) : PasswordCredentialRecord :=
  { row with
    passwordHash
    passwordChangedAt := some changedAt
    failedAttempts := 0
    lockedUntil := none }

/-- The fact that `complete` appends. -/
def passwordRecovered (auditId correlationId userId : UUID) : AuditEvent where
  id := auditId
  correlationId := correlationId
  actorId := some userId
  organizationId := none
  action := "auth.password_recovered"
  resourceType := "user"
  resourceId := some userId.str
  result := .succeeded

namespace AccountWrite

/-- What the adapter's method returns when its transaction commits. -/
abbrev Returned : AccountWrite → Type
  | completeRecovery .. => Option UUID
  | revokeAllForUser .. | deleteExpiredOrRevokedSessions _
  | deleteConsumedOrExpiredPasswordRecoveryTransactions _ => Nat
  | _ => Bool

/-- The transaction block: the rows when it is left, and what it returns. -/
def block (tables : Tables) : (write : AccountWrite) → Tables × write.Returned
  | createSession session auditEvent =>
      ({ tables with
          authSessions := tables.authSessions ++ [session]
          auditEvents := tables.auditEvents ++ [auditEvent] }, true)
  | revoke sessionId userId revokedAt auditEvent =>
      let revoked := { tables with
        authSessions := update (·.unrevokedAs sessionId userId)
          (fun row => { row with revokedAt := some revokedAt }) tables.authSessions }
      if rowcount (·.unrevokedAs sessionId userId) tables.authSessions ≠ 1 then
        (revoked, false)
      else ({ revoked with auditEvents := tables.auditEvents ++ [auditEvent] }, true)
  | revokeAllForUser userId revokedAt auditEvent =>
      let revokedCount := rowcount (·.activeFor userId revokedAt) tables.authSessions
      let revoked := { tables with
        authSessions := update (·.activeFor userId revokedAt)
          (fun row => { row with revokedAt := some revokedAt }) tables.authSessions }
      if revokedCount < 1 then (revoked, 0)
      else ({ revoked with auditEvents := tables.auditEvents ++ [auditEvent] }, revokedCount)
  | reauthenticate sessionId userId authenticatedAt auditEvent =>
      let refreshed := { tables with
        authSessions := update (·.activeAs sessionId userId authenticatedAt)
          (fun row => { row with
            assuranceLevel := StrEnum.value SessionAssuranceLevel.recentAuthentication
            createdAt := authenticatedAt
            lastSeenAt := some authenticatedAt }) tables.authSessions }
      if rowcount (·.activeAs sessionId userId authenticatedAt) tables.authSessions ≠ 1 then
        (refreshed, false)
      else ({ refreshed with auditEvents := tables.auditEvents ++ [auditEvent] }, true)
  | touchLastSeen sessionId userId lastSeenAt =>
      ({ tables with
          authSessions := update (·.activeAs sessionId userId lastSeenAt)
            (fun row => { row with lastSeenAt := some lastSeenAt }) tables.authSessions },
        rowcount (·.activeAs sessionId userId lastSeenAt) tables.authSessions == 1)
  | createRecovery transaction auditEvent =>
      ({ tables with
          passwordRecoveryTransactions := tables.passwordRecoveryTransactions ++ [transaction]
          auditEvents := tables.auditEvents ++ [auditEvent] }, true)
  | completeRecovery tokenHash passwordHash completedAt auditId correlationId =>
      let consumed := { tables with
        passwordRecoveryTransactions := update (·.openAt tokenHash completedAt)
          (fun row => { row with consumedAt := some completedAt })
          tables.passwordRecoveryTransactions }
      match tables.passwordRecoveryTransactions.find? (·.openAt tokenHash completedAt) with
      | none => (consumed, none)
      | some recovery =>
          let rotated := { consumed with
            passwordCredentials := update (·.userId == recovery.userId)
              (·.rotated passwordHash completedAt) tables.passwordCredentials }
          if rowcount (·.userId == recovery.userId) tables.passwordCredentials ≠ 1 then
            (rotated, none)
          else
            ({ rotated with
                authSessions := update (·.activeFor recovery.userId completedAt)
                  (fun row => { row with revokedAt := some completedAt }) tables.authSessions
                auditEvents := tables.auditEvents ++
                  [passwordRecovered auditId correlationId recovery.userId] },
              some recovery.userId)
  | changePassword userId passwordHash changedAt auditEvent =>
      let rotated := { tables with
        passwordCredentials := update (·.userId == userId) (·.rotated passwordHash changedAt)
          tables.passwordCredentials }
      if rowcount (·.userId == userId) tables.passwordCredentials ≠ 1 then (rotated, false)
      else ({ rotated with auditEvents := tables.auditEvents ++ [auditEvent] }, true)
  | link identity auditEvent =>
      ({ tables with
          loginIdentities := tables.loginIdentities ++ [identity]
          auditEvents := tables.auditEvents ++ [auditEvent] }, true)
  | unlink identityId userId auditEvent =>
      let selected := fun row : LoginIdentityRecord =>
        row.id == identityId && row.userId == userId &&
          row.provider != StrEnum.value LoginIdentityProvider.email
      let deleted := { tables with
        loginIdentities := tables.loginIdentities.filter (!selected ·) }
      if rowcount selected tables.loginIdentities ≠ 1 then (deleted, false)
      else ({ deleted with auditEvents := tables.auditEvents ++ [auditEvent] }, true)
  | deleteExpiredOrRevokedSessions before =>
      ({ tables with
          authSessions := tables.authSessions.filter (!·.expiredOrRevoked before) },
        rowcount (·.expiredOrRevoked before) tables.authSessions)
  | deleteConsumedOrExpiredPasswordRecoveryTransactions before =>
      ({ tables with
          passwordRecoveryTransactions :=
            tables.passwordRecoveryTransactions.filter (!·.consumedOrExpired before) },
        rowcount (·.consumedOrExpired before) tables.passwordRecoveryTransactions)

/-- Run the block; `none` is the `IntegrityError` that rolls it back. -/
def apply (write : AccountWrite) (database : Database) : Option Database :=
  Database.commit (write.block database.tables).1

theorem apply_eq_some {write : AccountWrite} {database after : Database} :
    write.apply database = some after ↔ after.tables = (write.block database.tables).1 :=
  Database.commit_eq_some

end AccountWrite

end MuxivoConsole
