/-
What a use case can do: read one snapshot, commit one transaction, draw an
identifier, or call a port outside the Console (the clock, token and slug
generators, the platform services and the mail notifier), whose answers are
not under its control.
-/
import MuxivoConsole.Interleaving.Discipline
import MuxivoConsole.Persistence.Readers

namespace MuxivoConsole

open Interleaving

/-- The exception classes that leave a use case. -/
inductive ErrorClass where
  | valueError
  | indexError
  | integrityError
  /-- `ConnectionError` and its subclasses -/
  | connectionError
  /-- `PermissionError` itself -/
  | permissionError
  | overflowError
  | emailPasswordRegistrationRejected
  | emailPasswordRegistrationVerificationRejected
  | authenticationRejected
  | sessionCreationRejected
  | browserSessionListRejected
  | browserSessionReauthenticationRejected
  | browserSessionBulkRevocationRejected
  | passwordRecoveryCompletionRejected
  | passwordChangeRejected
  | identityLinkRejected
  | loginIdentityManagementRejected
  | organizationCreationRejected
  | organizationMemberManagementRejected
  | organizationInvitationRejected
  | organizationInvitationAcceptanceRejected
  | organizationInvitationRevocationRejected
  | platformConnectionConnectRejected
  | platformConnectionLifecycleRejected
  | platformControlUnavailable
  | platformHealthUnavailable
  | recentAuthenticationRequired
  | accessDenied
  /-- anything else that a port raises -/
  | other
  deriving DecidableEq

/-- A raised exception with its message. -/
structure Failure where
  errorClass : ErrorClass
  message : String
  deriving DecidableEq

inductive ChannelPurpose where
  | welcome
  | memberLog
  | modLog
  | messageLog
  | channelLog
  | streamAnnounce
  | devBlog
  | aiModerationLog
  deriving DecidableEq

/-- A moderation policy as its use case sees it: the platform it is for; the
rest is handed through. -/
structure PlatformAiModerationPolicy where
  platform : Platform
  deriving DecidableEq

/-- Welcome settings as their use case sees them. -/
structure PlatformWelcomeSettings where
  platform : Platform
  deriving DecidableEq

/-- What the three platform writer ports send to the Control API. -/
inductive PlatformUpdate where
  /-- `update_ai_moderation_policy_for_connection` -/
  | aiModerationPolicy (policy : PlatformAiModerationPolicy)
  /-- `update_channel_purpose_for_connection` -/
  | channelPurpose (purpose : ChannelPurpose) (channelId : String)
  /-- `update_welcome_settings_for_connection` -/
  | welcomeSettings (settings : PlatformWelcomeSettings)
  deriving DecidableEq

/-- The platform service's answer to an update, handed through to the caller. -/
structure PlatformSummary where
  body : String
  deriving DecidableEq

inductive Call where
  /-- `Clock.now` -/
  | now
  /-- `OpaqueSessionTokenIssuer.issue` -/
  | issueToken
  /-- `EmailProtector.encrypt`: the ciphertext is randomized -/
  | encryptEmail (normalizedEmail : String)
  /-- `OrganizationSlugGenerator.generate` -/
  | generateSlug (name : String)
  /-- `PlatformConnectionVerifier.verify_connection` -/
  | verifyConnection (actorId organizationId : UUID) (platform : Platform)
      (externalResourceId : String) (correlationId : UUID)
  /-- `PlatformConnectionReconciliationProbe.inspect_connection` -/
  | inspectConnection (connection : PlatformConnection) (correlationId : UUID)
  /-- `OrganizationInvitationNotifier.send` -/
  | sendInvitation (invitationId : UUID) (organizationName recipientEmail role : String)
      (rawToken : String) (expiresAt : Instant) (correlationId : UUID)
  /-- the platform writer ports -/
  | updatePlatform (organizationId actorId : UUID) (externalResourceId : String)
      (update : PlatformUpdate) (correlationId : UUID)
  deriving DecidableEq

/-- What a port may answer; the platform services and the notifier may raise. -/
def Call.Answer : Call → Type
  | now => Instant
  | issueToken => String
  | encryptEmail _ => List UInt8
  | generateSlug _ => String
  | verifyConnection .. => Except Failure Bool
  | inspectConnection .. => Except Failure ConnectionReconciliationDecision
  | sendInvitation .. => Except Failure Bool
  | updatePlatform .. => Except Failure PlatformSummary

/-- The Console as a program over its database. -/
abbrev console : Interface where
  Store := Database
  Write := Write
  apply := Write.apply
  Receipt _ := Unit
  receipt _ _ := ()
  Name := UUID
  Call := Call
  Answer := Call.Answer

instance (priority := low) : DecidableEq console.Name :=
  inferInstanceAs (DecidableEq UUID)

/-- The deterministic ports, and which platforms have a reconciliation probe. -/
structure Ports where
  /-- `EmailAddressNormalizer.normalize`; `none` is its `ValueError` -/
  normalizeEmail : String → Option String
  /-- `EmailLookupHasher.lookup_hash` -/
  lookupHash : String → String
  /-- `SessionTokenHasher.hash` -/
  hashToken : String → String
  /-- the keys of `ReconcilePlatformConnections.probes` -/
  hasProbe : Platform → Bool

abbrev UseCase (α : Type) := Execution console Failure α

namespace UseCase

/-- Let a `ValueError` of a constructor or a port propagate. -/
def orValueError {α : Type} : Except String α → UseCase α
  | .ok value => pure value
  | .error message => Execution.raise ⟨.valueError, message⟩

/-- Let an exception of a port propagate. -/
def orRaise {α : Type} : Except Failure α → UseCase α
  | .ok value => pure value
  | .error failure => Execution.raise failure

/-- `clock.now` -/
def now : UseCase Instant :=
  @Execution.ask console Failure Call.now

/-- `token_issuer.issue` -/
def issueToken : UseCase String :=
  @Execution.ask console Failure Call.issueToken

/-- `email_protector.encrypt` -/
def encryptEmail (normalizedEmail : String) : UseCase (List UInt8) :=
  @Execution.ask console Failure (Call.encryptEmail normalizedEmail)

/-- `slugs.generate` -/
def generateSlug (name : String) : UseCase String :=
  @Execution.ask console Failure (Call.generateSlug name)

/-- `verifier.verify_connection` -/
def verifyConnection (actorId organizationId : UUID) (platform : Platform)
    (externalResourceId : String) (correlationId : UUID) : UseCase (Except Failure Bool) :=
  @Execution.ask console Failure
    (Call.verifyConnection actorId organizationId platform externalResourceId correlationId)

/-- `probe.inspect_connection` -/
def inspectConnection (connection : PlatformConnection) (correlationId : UUID) :
    UseCase (Except Failure ConnectionReconciliationDecision) :=
  @Execution.ask console Failure (Call.inspectConnection connection correlationId)

/-- `notifier.send` -/
def sendInvitation (invitationId : UUID) (organizationName recipientEmail role : String)
    (rawToken : String) (expiresAt : Instant) (correlationId : UUID) :
    UseCase (Except Failure Bool) :=
  @Execution.ask console Failure (Call.sendInvitation invitationId organizationName
    recipientEmail role rawToken expiresAt correlationId)

/-- The three platform writer ports. -/
def updatePlatform (organizationId actorId : UUID) (externalResourceId : String)
    (update : PlatformUpdate) (correlationId : UUID) :
    UseCase (Except Failure PlatformSummary) :=
  @Execution.ask console Failure
    (Call.updatePlatform organizationId actorId externalResourceId update correlationId)

/-- Commit one transaction; the answer says whether it stands. -/
def save (write : Write) : UseCase Bool :=
  @Execution.save console Failure write

/-- `IdentifierGenerator.new` -/
def newIdentifier : UseCase UUID :=
  Execution.newName

/-- `email_normalizer.normalize` -/
def normalizeEmail (ports : Ports) (email : String) : UseCase String :=
  match ports.normalizeEmail email with
  | some normalized => pure normalized
  | none => Execution.raise ⟨.valueError, "Email address is invalid."⟩

/-- `SqlAlchemyOrganizationMembershipReader.get_membership`: two statements,
each over its own snapshot. -/
def getMembership (actorId organizationId : UUID) :
    UseCase (Option OrganizationMembership) := do
  let membership ← Execution.select fun database : Database =>
    database.membershipRow actorId organizationId
  match membership with
  | none => pure none
  | some membership => do
      let scopes ← Execution.select fun database : Database =>
        database.membershipScopes membership.id
      pure (membershipFromRecord membership scopes)

/-- `SqlAlchemyUserStatusReader.get_status` -/
def getUserStatus (userId : UUID) : UseCase (Option UserStatus) :=
  Execution.select fun database : Database => database.userStatus userId

/-- `find_active_user_id_by_email_lookup_hash` -/
def findActiveUserIdByEmailLookupHash (emailLookupHash : String) :
    UseCase (Option UUID) :=
  Execution.select fun database : Database =>
    database.activeUserIdByEmailLookupHash emailLookupHash

/-- `SqlAlchemyOrganizationListingReader.find_by_id` -/
def findOrganizationById (organizationId : UUID) : UseCase (Option Organization) :=
  Execution.select fun database : Database => database.organizationById organizationId

/-- The scope rows of an invitation that was just read, in a statement of
their own. -/
def readInvitationScopes (invitation : Option OrganizationInvitationRecord) :
    UseCase (Option OrganizationInvitation) :=
  match invitation with
  | none => pure none
  | some invitation => do
      let scopes ← Execution.select fun database : Database =>
        database.invitationScopes invitation.id
      pure (invitationFromRecords invitation scopes)

/-- `SqlAlchemyOrganizationInvitationReader.find_for_organization` -/
def findInvitationForOrganization (organizationId invitationId : UUID) :
    UseCase (Option OrganizationInvitation) := do
  let invitation ← Execution.select fun database : Database =>
    database.invitationRow organizationId invitationId
  readInvitationScopes invitation

/-- `find_pending_by_token_hash` -/
def findPendingByTokenHash (tokenHash : String) (now : Instant) :
    UseCase (Option OrganizationInvitation) := do
  let invitation ← Execution.select fun database : Database =>
    database.pendingInvitationRow tokenHash now
  readInvitationScopes invitation

/-- `SqlAlchemyPlatformConnectionReader.find_for_organization` -/
def findConnectionForOrganization (organizationId connectionId : UUID) :
    UseCase (Option PlatformConnection) :=
  Execution.select fun database : Database =>
    database.connectionForOrganization organizationId connectionId

/-- `MembershipOrganizationAuthorizer.authorize` -/
def authorize (request : AuthorizationRequest) : UseCase AuthorizationDecision := do
  let membership ← getMembership request.actorId request.organizationId
  match membership with
  | none => pure .deny
  | some membership => pure ⟨membership.allows request⟩

end UseCase

end MuxivoConsole
