/-
The Console's tables.  Columns with a check constraint hold values of their
enumeration; a column without one holds text, and readers parse it.  Columns
that no modelled statement reads or sets are left out.
-/
import MuxivoConsole.Domain.Connections
import MuxivoConsole.Domain.Sessions
import MuxivoConsole.Relational.Table
import Mathlib.Tactic.MkIffOfInductiveProp

namespace MuxivoConsole

open Relational

/-- `users` -/
structure UserRecord where
  id : UUID
  status : UserStatus
  displayName : String
  deriving DecidableEq

/-- `login_identities` -/
structure LoginIdentityRecord where
  id : UUID
  userId : UUID
  provider : String
  providerSubject : String
  deriving DecidableEq

/-- `user_emails` -/
structure UserEmailRecord where
  id : UUID
  userId : UUID
  emailCiphertext : List UInt8
  emailLookupHash : String
  isPrimary : Bool
  deriving DecidableEq

/-- `password_credentials`; the change time of a new row is the server default,
`none` here. -/
structure PasswordCredentialRecord where
  userId : UUID
  passwordHash : String
  passwordChangedAt : Option Instant := none
  failedAttempts : Nat := 0
  lockedUntil : Option Instant := none
  deriving DecidableEq

/-- `auth_sessions` -/
structure AuthSessionRecord where
  id : UUID
  userId : UUID
  tokenHash : String
  expiresAt : Instant
  revokedAt : Option Instant
  assuranceLevel : String
  ipHash : Option String
  userAgentHash : Option String
  lastSeenAt : Option Instant
  createdAt : Instant
  deriving DecidableEq

/-- `password_recovery_transactions` -/
structure PasswordRecoveryTransactionRecord where
  id : UUID
  userId : UUID
  tokenHash : String
  expiresAt : Instant
  consumedAt : Option Instant
  deriving DecidableEq

/-- `organizations` -/
structure OrganizationRecord where
  id : UUID
  name : String
  slug : String
  deriving DecidableEq

/-- `organization_memberships` -/
structure OrganizationMembershipRecord where
  id : UUID
  organizationId : UUID
  userId : UUID
  role : OrganizationRole
  deriving DecidableEq

/-- `membership_resource_scopes` -/
structure MembershipResourceScopeRecord where
  id : UUID
  membershipId : UUID
  resource : String
  action : String
  deriving DecidableEq

/-- `organization_invitations` -/
structure OrganizationInvitationRecord where
  id : UUID
  organizationId : UUID
  invitedByUserId : Option UUID
  emailCiphertext : List UInt8
  emailLookupHash : String
  emailHint : String
  tokenHash : String
  role : OrganizationRole
  deliveryStatus : Option OrganizationInvitationDeliveryStatus
  expiresAt : Instant
  acceptedAt : Option Instant
  revokedAt : Option Instant
  createdAt : Instant
  deriving DecidableEq

/-- `organization_invitation_scopes` -/
structure OrganizationInvitationScopeRecord where
  id : UUID
  invitationId : UUID
  resource : String
  action : String
  deriving DecidableEq

/-- `platform_connections`; the capabilities are a JSON value, `none` when it
is no object, and a flag says whether the entry is exactly `true`. -/
structure PlatformConnectionRecord where
  id : UUID
  organizationId : UUID
  platform : String
  externalResourceId : String
  status : ConnectionStatus
  statusReason : Option String
  grantedCapabilities : Option (List (String × Bool))
  deriving DecidableEq

/-- `platform_connection_lifecycle_idempotency` -/
structure PlatformConnectionLifecycleIdempotencyRecord where
  organizationId : UUID
  idempotencyKey : String
  connectionId : UUID
  action : PlatformConnectionLifecycleAction
  resultStatus : ConnectionStatus
  resultReason : Option String
  deriving DecidableEq

/-- The rows of every table, without their constraints. -/
structure Tables where
  users : List UserRecord := []
  loginIdentities : List LoginIdentityRecord := []
  userEmails : List UserEmailRecord := []
  passwordCredentials : List PasswordCredentialRecord := []
  authSessions : List AuthSessionRecord := []
  passwordRecoveryTransactions : List PasswordRecoveryTransactionRecord := []
  organizations : List OrganizationRecord := []
  organizationMemberships : List OrganizationMembershipRecord := []
  membershipResourceScopes : List MembershipResourceScopeRecord := []
  organizationInvitations : List OrganizationInvitationRecord := []
  organizationInvitationScopes : List OrganizationInvitationScopeRecord := []
  platformConnections : List PlatformConnectionRecord := []
  lifecycleIdempotency : List PlatformConnectionLifecycleIdempotencyRecord := []
  auditEvents : List AuditEvent := []
  deriving DecidableEq

namespace Tables

/-- Primary keys, unique constraints, foreign keys and the check constraint
on invited roles. -/
@[mk_iff]
structure Constraints (tables : Tables) : Prop where
  userId : UniqueOn UserRecord.id tables.users
  identityId : UniqueOn LoginIdentityRecord.id tables.loginIdentities
  identityProviderSubject :
    UniqueOn (fun row => (row.provider, row.providerSubject)) tables.loginIdentities
  emailId : UniqueOn UserEmailRecord.id tables.userEmails
  emailLookupHash : UniqueOn UserEmailRecord.emailLookupHash tables.userEmails
  credentialUserId : UniqueOn PasswordCredentialRecord.userId tables.passwordCredentials
  sessionId : UniqueOn AuthSessionRecord.id tables.authSessions
  sessionTokenHash : UniqueOn AuthSessionRecord.tokenHash tables.authSessions
  recoveryId :
    UniqueOn PasswordRecoveryTransactionRecord.id tables.passwordRecoveryTransactions
  recoveryTokenHash :
    UniqueOn PasswordRecoveryTransactionRecord.tokenHash tables.passwordRecoveryTransactions
  organizationId : UniqueOn OrganizationRecord.id tables.organizations
  organizationSlug : UniqueOn OrganizationRecord.slug tables.organizations
  membershipId : UniqueOn OrganizationMembershipRecord.id tables.organizationMemberships
  organizationMembership :
    UniqueOn (fun row => (row.organizationId, row.userId)) tables.organizationMemberships
  scopeId : UniqueOn MembershipResourceScopeRecord.id tables.membershipResourceScopes
  invitationId : UniqueOn OrganizationInvitationRecord.id tables.organizationInvitations
  invitationTokenHash :
    UniqueOn OrganizationInvitationRecord.tokenHash tables.organizationInvitations
  invitationScopeId :
    UniqueOn OrganizationInvitationScopeRecord.id tables.organizationInvitationScopes
  invitationScope :
    UniqueOn (fun row => (row.invitationId, row.resource, row.action))
      tables.organizationInvitationScopes
  connectionId : UniqueOn PlatformConnectionRecord.id tables.platformConnections
  connectionExternalResource :
    UniqueOn (fun row => (row.platform, row.externalResourceId)) tables.platformConnections
  lifecycleKey :
    UniqueOn (fun row => (row.organizationId, row.idempotencyKey)) tables.lifecycleIdempotency
  auditEventId : UniqueOn AuditEvent.id tables.auditEvents
  identityUser :
    Refers LoginIdentityRecord.userId tables.loginIdentities UserRecord.id tables.users
  emailUser : Refers UserEmailRecord.userId tables.userEmails UserRecord.id tables.users
  credentialUser :
    Refers PasswordCredentialRecord.userId tables.passwordCredentials UserRecord.id
      tables.users
  sessionUser : Refers AuthSessionRecord.userId tables.authSessions UserRecord.id tables.users
  recoveryUser :
    Refers PasswordRecoveryTransactionRecord.userId tables.passwordRecoveryTransactions
      UserRecord.id tables.users
  membershipOrganization :
    Refers OrganizationMembershipRecord.organizationId tables.organizationMemberships
      OrganizationRecord.id tables.organizations
  membershipUser :
    Refers OrganizationMembershipRecord.userId tables.organizationMemberships
      UserRecord.id tables.users
  scopeMembership :
    Refers MembershipResourceScopeRecord.membershipId tables.membershipResourceScopes
      OrganizationMembershipRecord.id tables.organizationMemberships
  invitationOrganization :
    Refers OrganizationInvitationRecord.organizationId tables.organizationInvitations
      OrganizationRecord.id tables.organizations
  invitationInviter :
    Refers id (tables.organizationInvitations.filterMap (·.invitedByUserId)) UserRecord.id
      tables.users
  invitationRole : ∀ row ∈ tables.organizationInvitations, row.role ≠ .owner
  invitationScopeInvitation :
    Refers OrganizationInvitationScopeRecord.invitationId
      tables.organizationInvitationScopes OrganizationInvitationRecord.id
      tables.organizationInvitations
  connectionOrganization :
    Refers PlatformConnectionRecord.organizationId tables.platformConnections
      OrganizationRecord.id tables.organizations
  lifecycleOrganization :
    Refers PlatformConnectionLifecycleIdempotencyRecord.organizationId
      tables.lifecycleIdempotency OrganizationRecord.id tables.organizations
  lifecycleConnection :
    Refers PlatformConnectionLifecycleIdempotencyRecord.connectionId
      tables.lifecycleIdempotency PlatformConnectionRecord.id tables.platformConnections

set_option synthInstance.maxSize 256 in
instance (tables : Tables) : Decidable tables.Constraints :=
  decidable_of_iff _ (constraints_iff tables).symm

end Tables

/-- Tables that satisfy their constraints. -/
structure Database where
  tables : Tables
  constraints : tables.Constraints

namespace Database

/-- Commit: the transaction's result stands if it violates no constraint;
otherwise an `IntegrityError` rolls it back. -/
def commit (tables : Tables) : Option Database :=
  if hconstraints : tables.Constraints then some ⟨tables, hconstraints⟩ else none

theorem commit_eq_some {tables : Tables} {database : Database} :
    commit tables = some database ↔ database.tables = tables := by
  unfold commit
  constructor
  · intro hcommit
    split at hcommit
    · cases hcommit
      rfl
    · cases hcommit
  · rintro rfl
    rw [dif_pos database.constraints]

end Database

end MuxivoConsole
