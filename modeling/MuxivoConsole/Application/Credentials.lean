/-
Use cases for passwords and login identities: recover, change, link and unlink.
-/
import MuxivoConsole.Application.Sessions

namespace MuxivoConsole

open Interleaving

structure RequestPasswordRecoveryCommand where
  email : String
  correlationId : UUID
  deriving DecidableEq

structure CompletePasswordRecoveryCommand where
  token : String
  newPassword : String
  correlationId : UUID
  deriving DecidableEq

structure ChangeEmailPasswordCommand where
  principal : BrowserSessionPrincipal
  currentPassword : String
  newPassword : String
  correlationId : UUID
  deriving DecidableEq

structure LinkVerifiedIdentityCommand where
  actorId : UUID
  provider : LoginIdentityProvider
  verifiedProviderSubject : String
  correlationId : UUID
  deriving DecidableEq

structure UnlinkLoginIdentityCommand where
  principal : BrowserSessionPrincipal
  identityId : UUID
  correlationId : UUID
  deriving DecidableEq

/-- `lifetime`: thirty minutes. -/
def recoveryLifetime : Nat :=
  30 * 60 * 1000000

/-- `_lifetime_seconds` -/
def recoveryLifetimeSeconds : Int :=
  max 60 (30 * 60)

/-- `_key` -/
def recoveryKey (tokenHash : String) : String :=
  "muxivo-console:password-recovery:" ++ tokenHash

/-- `_is_valid_password` and `_is_valid_new_password` -/
def isValidPassword (password : String) : Bool :=
  12 ≤ password.length && password.length ≤ 1024

/-- An audit fact about a user, which always succeeded. -/
def userAudit (id correlationId userId : UUID) (action : String)
    (named : action ≠ "" ∧ "user" ≠ "") : AuditEvent where
  id := id
  correlationId := correlationId
  actorId := some userId
  organizationId := none
  action := action
  resourceType := "user"
  resourceId := some userId.str
  result := .succeeded
  named := named

/-- An audit fact about a login identity, which always succeeded. -/
def identityAudit (id correlationId actorId identityId : UUID) (action : String)
    (named : action ≠ "" ∧ "login_identity" ≠ "") : AuditEvent where
  id := id
  correlationId := correlationId
  actorId := some actorId
  organizationId := none
  action := action
  resourceType := "login_identity"
  resourceId := some identityId.str
  result := .succeeded
  named := named

namespace AuthUseCase

section Recovery

/-- `_discard_token`: an exception of the store is only logged. -/
def discardToken (key value : String) : AuthUseCase Unit := do
  let _ ← consumeToken key value
  pure ()

/-- `RequestPasswordRecovery.execute` -/
def requestPasswordRecovery (ports : AuthPorts) (command : RequestPasswordRecoveryCommand) :
    AuthUseCase Unit := do
  let rawToken ← issueToken
  let tokenHash := ports.hashToken rawToken
  match ports.normalizeEmail command.email with
  | none => pure ()
  | some normalizedEmail => do
      let account ← Execution.select fun store : AuthStore =>
        store.database.accountByEmailLookupHash (ports.lookupHash normalizedEmail)
      match account with
      | none => pure ()
      | some account =>
          if account.fields.status ≠ .active then pure ()
          else do
            let now ← now
            let id ← newIdentifier
            let transaction ← orValueError
              (Validated.make PasswordRecoveryTransactionFields.postInit
                { id
                  userId := account.fields.userId
                  tokenHash
                  expiresAt := now + recoveryLifetime })
            let answer ← putToken (recoveryKey tokenHash) transaction.fields.id.str
              recoveryLifetimeSeconds
            let stored ← orRaise answer
            if !stored then pure ()
            else do
              let auditId ← newIdentifier
              let created ← transact (.createRecovery
                { id := transaction.fields.id
                  userId := transaction.fields.userId
                  tokenHash := transaction.fields.tokenHash
                  expiresAt := transaction.fields.expiresAt
                  consumedAt := transaction.fields.consumedAt }
                (userAudit auditId command.correlationId account.fields.userId
                  "auth.password_recovery_requested" (by decide)))
              if created ≠ some true then
                discardToken (recoveryKey tokenHash) transaction.fields.id.str
              else do
                let sent ← @Execution.ask auth Failure (.sendRecovery account.fields.userId
                  normalizedEmail rawToken transaction.fields.expiresAt command.correlationId)
                match sent with
                | .ok () => pure ()
                | .error _ => discardToken (recoveryKey tokenHash) transaction.fields.id.str

/-- `PasswordRecoveryCompletionRejectedError` -/
def rejectRecovery {α : Type} : AuthUseCase α :=
  Execution.raise ⟨.passwordRecoveryCompletionRejected, "Password recovery failed."⟩

/-- Tell the owner after the commit; nothing here fails the use case. -/
def notifyRecovered (ports : AuthPorts) (userId : UUID) (changedAt : Instant)
    (correlationId : UUID) : AuthUseCase Unit := do
  let ciphertext ← Execution.select fun store : AuthStore =>
    store.database.primaryEmailCiphertext userId
  match ciphertext.bind ports.decryptEmail with
  | none => pure ()
  | some recipientEmail =>
      if recipientEmail = "" then pure ()
      else do
        let _ ← @Execution.ask auth Failure
          (.sendRecovered userId recipientEmail changedAt correlationId)
        pure ()

/-- `CompletePasswordRecovery.execute` -/
def completePasswordRecovery (ports : AuthPorts)
    (command : CompletePasswordRecoveryCommand) : AuthUseCase Unit := do
  if !isUsableToken command.token then rejectRecovery
  else if !isValidPassword command.newPassword then rejectRecovery
  else
    let tokenHash := ports.hashToken command.token
    let answer ← getToken (recoveryKey tokenHash)
    let storedReference ← orRaise answer
    match storedReference with
    | none => rejectRecovery
    | some storedReference =>
        if !ports.isUuid storedReference then rejectRecovery
        else do
          let completedAt ← now
          let passwordHash ← hashPassword command.newPassword
          let auditId ← newIdentifier
          let completed ← transact (.completeRecovery tokenHash passwordHash completedAt
            auditId command.correlationId)
          match completed.bind (show Option UUID → Option UUID from id) with
          | none => rejectRecovery
          | some userId => do
              let _ ← consumeToken (recoveryKey tokenHash) storedReference
              notifyRecovered ports userId completedAt command.correlationId

end Recovery

/-- `PasswordChangeRejectedError` -/
def rejectPasswordChange {α : Type} : AuthUseCase α :=
  Execution.raise ⟨.passwordChangeRejected, "Password change failed."⟩

/-- `ChangeEmailPassword.execute` -/
def changeEmailPassword (ports : AuthPorts) (command : ChangeEmailPasswordCommand) :
    AuthUseCase Unit := do
  let actorId := command.principal.userId
  requireRecentAuthentication command.principal
  let status ← getUserStatus actorId
  if status ≠ some .active then rejectPasswordChange
  else if !isValidPassword command.newPassword then rejectPasswordChange
  else
    let credential ← Execution.select fun store : AuthStore =>
      store.database.credentialForUser actorId
    match credential with
    | none => do
        let _ ← hashPassword command.currentPassword
        rejectPasswordChange
    | some credential =>
        if !ports.verifyPassword credential.fields.passwordHash command.currentPassword then
          rejectPasswordChange
        else if command.currentPassword = command.newPassword then rejectPasswordChange
        else do
          let passwordHash ← hashPassword command.newPassword
          let changedAt ← now
          let auditId ← newIdentifier
          let changed ← transact (.changePassword actorId passwordHash changedAt
            (userAudit auditId command.correlationId actorId "auth.password_changed"
              (by decide)))
          if changed = some true then pure () else rejectPasswordChange

section Identities

/-- `IdentityLinkRejectedError` -/
def rejectIdentityLink {α : Type} : AuthUseCase α :=
  Execution.raise ⟨.identityLinkRejected, "Identity could not be linked."⟩

/-- `LinkVerifiedIdentity.execute` -/
def linkVerifiedIdentity (command : LinkVerifiedIdentityCommand) :
    AuthUseCase LoginIdentity := do
  if command.provider = .email then rejectIdentityLink
  else
    let status ← getUserStatus command.actorId
    if status ≠ some .active then rejectIdentityLink
    else
      let id ← newIdentifier
      match Validated.make LoginIdentityFields.postInit
        { id
          userId := command.actorId
          provider := command.provider
          providerSubject := command.verifiedProviderSubject } with
      | .error _ => rejectIdentityLink
      | .ok identity => do
          let auditId ← newIdentifier
          let linked ← transact (.link
            ⟨identity.fields.id, identity.fields.userId,
              StrEnum.value identity.fields.provider, identity.fields.providerSubject⟩
            (identityAudit auditId command.correlationId command.actorId identity.fields.id
              "identity.link" (by decide)))
          if linked = some true then pure identity else rejectIdentityLink

/-- `LoginIdentityManagementRejectedError` -/
def rejectUnlink {α : Type} (message : String) : AuthUseCase α :=
  Execution.raise ⟨.loginIdentityManagementRejected, message⟩

/-- `UnlinkLoginIdentity.execute` -/
def unlinkLoginIdentity (command : UnlinkLoginIdentityCommand) :
    AuthUseCase LoginIdentityProfile := do
  let actorId := command.principal.userId
  requireRecentAuthentication command.principal
  let status ← getUserStatus actorId
  if status ≠ some .active then rejectUnlink "Identity unlink denied."
  else
    let identities ← Execution.select fun store : AuthStore =>
      store.database.identitiesForUser actorId
    match identities.find? (·.id == command.identityId) with
    | none => rejectUnlink "Identity unlink denied."
    | some target =>
        if target.provider = .email then rejectUnlink "Email identity cannot be unlinked."
        else if identities.length ≤ 1 then
          rejectUnlink "Last usable identity cannot be removed."
        else do
          let auditId ← newIdentifier
          let unlinked ← transact (.unlink target.id actorId
            (identityAudit auditId command.correlationId actorId target.id "identity.unlink"
              (by decide)))
          if unlinked = some true then pure target
          else rejectUnlink "Identity unlink failed."

end Identities

end AuthUseCase

end MuxivoConsole
