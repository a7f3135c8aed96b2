/-
Use cases that send a change to a platform's Control API on behalf of an
organization: moderation policy, channel purposes and welcome settings.
-/
import MuxivoConsole.Application.Ports

namespace MuxivoConsole

open Interleaving

structure UpdatePlatformAiModerationPolicyCommand where
  principal : BrowserSessionPrincipal
  organizationId : UUID
  connectionId : UUID
  policy : PlatformAiModerationPolicy
  correlationId : UUID
  deriving DecidableEq

structure UpdatePlatformChannelPurposeCommand where
  actorId : UUID
  organizationId : UUID
  connectionId : UUID
  purpose : ChannelPurpose
  channelId : String
  correlationId : UUID
  deriving DecidableEq

structure UpdatePlatformWelcomeSettingsCommand where
  actorId : UUID
  organizationId : UUID
  connectionId : UUID
  settings : PlatformWelcomeSettings
  correlationId : UUID
  deriving DecidableEq

/-- `maximum_age`: fifteen minutes. -/
def recentAuthenticationMaximumAge : Nat :=
  15 * 60 * 1000000

namespace UseCase

/-- `RequireRecentAuthentication.check` -/
def requireRecentAuthentication (principal : BrowserSessionPrincipal) : UseCase Unit := do
  let now ← now
  match principal.assuranceLevel, principal.authenticatedAt with
  | .recentAuthentication, some authenticatedAt =>
      if authenticatedAt > now ∨ now - authenticatedAt > recentAuthenticationMaximumAge then
        Execution.raise ⟨.recentAuthenticationRequired,
          "Recent authentication is required for this operation."⟩
      else pure ()
  | _, _ =>
      Execution.raise ⟨.recentAuthenticationRequired,
        "Recent authentication is required for this operation."⟩

/-- The authorization request shared by the platform updates. -/
def manageControlModules (actorId organizationId : UUID) : AuthorizationRequest where
  actorId := actorId
  organizationId := organizationId
  resource := .controlModules
  action := .manage

/-- The gate each update repeats: an authorized actor, then an active Discord
connection of the organization, of the platform that the payload names if it
names one. -/
def usableConnection (actorId organizationId connectionId : UUID)
    (payloadPlatform : Option Platform) (denied : String) : UseCase PlatformConnection := do
  let decision ← authorize (manageControlModules actorId organizationId)
  if !decision.allowed then Execution.raise ⟨.accessDenied, denied⟩
  else
    let connection ← findConnectionForOrganization organizationId connectionId
    match connection with
    | none =>
        Execution.raise ⟨.platformHealthUnavailable, "No usable platform connection exists."⟩
    | some connection =>
        if connection.fields.platform ≠ .discord ∨
            payloadPlatform.any (· ≠ connection.fields.platform) ∨
            connection.fields.status ≠ .active then
          Execution.raise ⟨.platformHealthUnavailable,
            "No usable platform connection exists."⟩
        else pure connection

/-- `_record_audit`: an `IntegrityError` of the audit writer propagates. -/
def recordPolicyAudit (command : UpdatePlatformAiModerationPolicyCommand)
    (result : AuditResult) : UseCase Unit := do
  let id ← newIdentifier
  let recorded ← save (Write.recordAuditEvent
    { id
      correlationId := command.correlationId
      actorId := some command.principal.userId
      organizationId := some command.organizationId
      action := "platform_ai_moderation_policy.updated"
      resourceType := "platform_connection"
      resourceId := some command.connectionId.str
      result })
  if !recorded then Execution.raise ⟨.integrityError, ""⟩
  else pure ()

/-- `UpdatePlatformAiModerationPolicy.execute` -/
def updatePlatformAiModerationPolicy (command : UpdatePlatformAiModerationPolicyCommand) :
    UseCase PlatformSummary := do
  requireRecentAuthentication command.principal
  let connection ← usableConnection command.principal.userId command.organizationId
    command.connectionId (some command.policy.platform)
    "The actor is not allowed to update AI moderation policy."
  let answer ← updatePlatform command.organizationId command.principal.userId
    connection.fields.externalResourceId (.aiModerationPolicy command.policy)
    command.correlationId
  match answer with
  | .error failure => do
      recordPolicyAudit command .failed
      Execution.raise failure
  | .ok summary => do
      recordPolicyAudit command .succeeded
      pure summary

/-- `UpdatePlatformChannelPurpose.execute` -/
def updatePlatformChannelPurpose (command : UpdatePlatformChannelPurposeCommand) :
    UseCase PlatformSummary := do
  let connection ← usableConnection command.actorId command.organizationId
    command.connectionId none "The actor is not allowed to update channel purposes."
  let answer ← updatePlatform command.organizationId command.actorId
    connection.fields.externalResourceId (.channelPurpose command.purpose command.channelId)
    command.correlationId
  orRaise answer

/-- `UpdatePlatformWelcomeSettings.execute` -/
def updatePlatformWelcomeSettings (command : UpdatePlatformWelcomeSettingsCommand) :
    UseCase PlatformSummary := do
  let connection ← usableConnection command.actorId command.organizationId
    command.connectionId (some command.settings.platform)
    "The actor is not allowed to update welcome settings."
  let answer ← updatePlatform command.organizationId command.actorId
    connection.fields.externalResourceId (.welcomeSettings command.settings)
    command.correlationId
  orRaise answer

end UseCase

end MuxivoConsole
