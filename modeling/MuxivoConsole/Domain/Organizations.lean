/-
Organizations, roles, memberships and the authorization facts: who is acting,
in which organization, on which resource.
-/
import MuxivoConsole.PythonValues

namespace MuxivoConsole

inductive AuthorizationAction where
  | read
  | manage
  deriving DecidableEq

inductive AuthorizationResource where
  | controlModules
  | platformConnections
  | auditEvents
  | organizationMembers
  deriving DecidableEq

instance : StrEnum AuthorizationAction where
  members := [.read, .manage]
  value
    | .read => "read"
    | .manage => "manage"
  complete := by rintro ⟨⟩ <;> decide
  distinct := by decide

instance : StrEnum AuthorizationResource where
  members := [.controlModules, .platformConnections, .auditEvents, .organizationMembers]
  value
    | .controlModules => "console.control_modules"
    | .platformConnections => "console.platform_connections"
    | .auditEvents => "console.audit_events"
    | .organizationMembers => "console.organization_members"
  complete := by rintro ⟨⟩ <;> decide
  distinct := by decide

structure AuthorizationRequest where
  actorId : UUID
  organizationId : UUID
  resource : AuthorizationResource
  action : AuthorizationAction
  deriving DecidableEq

structure AuthorizationDecision where
  allowed : Bool
  deriving DecidableEq

def AuthorizationDecision.deny : AuthorizationDecision :=
  ⟨false⟩

inductive OrganizationRole where
  | owner
  | admin
  | moderator
  | analyst
  | viewer
  deriving DecidableEq

instance : StrEnum OrganizationRole where
  members := [.owner, .admin, .moderator, .analyst, .viewer]
  value
    | .owner => "owner"
    | .admin => "admin"
    | .moderator => "moderator"
    | .analyst => "analyst"
    | .viewer => "viewer"
  complete := by rintro ⟨⟩ <;> decide
  distinct := by decide

namespace OrganizationRole

/-- `_ROLE_RANK` -/
def rank : OrganizationRole → Nat
  | .owner => 0
  | .admin => 1
  | .moderator => 2
  | .analyst => 3
  | .viewer => 4

/-- A role can grant a strictly less privileged role. -/
def mayAssign (role target : OrganizationRole) : Bool :=
  role.rank < target.rank

/-- `_role_supports_pair` -/
def supportsPair (role : OrganizationRole) (resource : AuthorizationResource)
    (action : AuthorizationAction) : Bool :=
  match resource with
  | .organizationMembers => role = .owner || role = .admin
  | .controlModules => action = .read
  | .platformConnections => role = .admin && (action = .read || action = .manage)
  | .auditEvents => (role = .admin || role = .analyst) && action = .read

/-- `can_manage_organization_members` -/
def canManageMembers (role : OrganizationRole) : Bool :=
  role = .owner || role = .admin

@[simp] theorem not_mayAssign_owner (role : OrganizationRole) :
    role.mayAssign .owner = false := by
  simp [mayAssign, rank]

/-- A managing role outranks every role but the owner's and, unless it is the
owner's itself, the administrator's. -/
theorem mayAssign_of_manager {role target : OrganizationRole}
    (hmanages : role.canManageMembers = true) (howner : target ≠ .owner)
    (hadmin : target = .admin → role = .owner) : role.mayAssign target = true := by
  revert hmanages howner hadmin
  cases role <;> cases target <;> decide

/-- Only the owner grants the administrator role. -/
theorem mayAssign_admin_iff {role : OrganizationRole} :
    role.mayAssign .admin = true ↔ role = .owner := by
  cases role <;> decide

end OrganizationRole

structure OrganizationFields where
  id : UUID
  name : String
  slug : String
  deriving DecidableEq

def OrganizationFields.postInit (organization : OrganizationFields) : Option String :=
  if isBlank organization.name || organization.name.length > 128 then
    some "Organization name must contain 1 to 128 non-blank characters."
  else if organization.slug.length = 0 || organization.slug.length > 96 then
    some "Organization slug must contain 1 to 96 characters."
  else none

/-- A Console tenant. -/
abbrev Organization := Validated OrganizationFields.postInit

/-- A grant of one resource and action; `id` is the persistence identifier,
absent in a browser request. -/
structure MembershipResourceScope where
  resource : AuthorizationResource
  action : AuthorizationAction
  id : Option UUID := none
  deriving DecidableEq

def MembershipResourceScope.allows (scope : MembershipResourceScope)
    (request : AuthorizationRequest) : Bool :=
  scope.resource = request.resource && scope.action = request.action

def OrganizationRole.supportsScope (role : OrganizationRole)
    (scope : MembershipResourceScope) : Bool :=
  role.supportsPair scope.resource scope.action

structure OrganizationMembership where
  actorId : UUID
  organizationId : UUID
  role : OrganizationRole
  resourceScopes : FrozenSet MembershipResourceScope := .empty
  id : Option UUID := none
  deriving DecidableEq

/-- Evaluate a policy request.  The owner is resolved before the role matrix. -/
def OrganizationMembership.allows (membership : OrganizationMembership)
    (request : AuthorizationRequest) : Bool :=
  if request.actorId != membership.actorId ||
      request.organizationId != membership.organizationId then false
  else if membership.role = .owner then true
  else if !membership.role.supportsPair request.resource request.action then false
  else membership.resourceScopes.elements.any fun scope => scope.allows request

/-- The two ways a membership allows a request of its own actor. -/
theorem OrganizationMembership.allows_iff {membership : OrganizationMembership}
    {request : AuthorizationRequest} :
    membership.allows request = true ↔
      request.actorId = membership.actorId ∧
        request.organizationId = membership.organizationId ∧
          (membership.role = .owner ∨
            membership.role.supportsPair request.resource request.action = true ∧
              ∃ scope ∈ membership.resourceScopes.elements,
                scope.resource = request.resource ∧ scope.action = request.action) := by
  unfold OrganizationMembership.allows
  by_cases hactor : request.actorId = membership.actorId
  · by_cases horganization : request.organizationId = membership.organizationId
    · by_cases howner : membership.role = .owner
      · simp [hactor, horganization, howner]
      · by_cases hsupports :
          membership.role.supportsPair request.resource request.action = true
        · simp [hactor, horganization, howner, hsupports, MembershipResourceScope.allows]
        · simp [hactor, horganization, howner, hsupports]
    · simp [horganization]
  · simp [hactor]

/-- The part of an invitation's life that its row decides. -/
inductive OrganizationInvitationStatus where
  | pending
  | accepted
  | revoked
  | expired
  deriving DecidableEq

inductive OrganizationInvitationDeliveryStatus where
  | sent
  | unavailable
  | failed
  deriving DecidableEq

instance : StrEnum OrganizationInvitationDeliveryStatus where
  members := [.sent, .unavailable, .failed]
  value
    | .sent => "sent"
    | .unavailable => "unavailable"
    | .failed => "failed"
  complete := by rintro ⟨⟩ <;> decide
  distinct := by decide

/-- A timezone-aware instant, in microseconds. -/
abbrev Instant := Nat

structure OrganizationInvitationFields where
  id : UUID
  organizationId : UUID
  invitedByUserId : UUID
  emailLookupHash : String
  emailHint : String
  emailCiphertext : List UInt8
  tokenHash : String
  role : OrganizationRole
  resourceScopes : FrozenSet MembershipResourceScope
  expiresAt : Instant
  createdAt : Instant
  acceptedAt : Option Instant := none
  revokedAt : Option Instant := none
  deliveryStatus : Option OrganizationInvitationDeliveryStatus := none
  deriving DecidableEq

def OrganizationInvitationFields.postInit (invitation : OrganizationInvitationFields) :
    Option String :=
  if invitation.emailLookupHash.length ≠ 64 then
    some "Invitation e-mail lookup hash must be a SHA-256 hex digest."
  else if invitation.tokenHash.length ≠ 64 then
    some "Invitation token hash must be a SHA-256 hex digest."
  else if isBlank invitation.emailHint || invitation.emailHint.length > 192 then
    some "Invitation e-mail hint must contain 1 to 192 characters."
  else if invitation.emailCiphertext.isEmpty then
    some "Invitation e-mail ciphertext must not be empty."
  else if invitation.expiresAt ≤ invitation.createdAt then
    some "Invitation expiry must be after creation."
  else if invitation.acceptedAt.isSome && invitation.revokedAt.isSome then
    some "Invitation cannot be accepted and revoked at the same time."
  else none

/-- A membership offer without a plaintext e-mail or token. -/
abbrev OrganizationInvitation := Validated OrganizationInvitationFields.postInit

def OrganizationInvitationFields.statusAt (invitation : OrganizationInvitationFields)
    (now : Instant) : OrganizationInvitationStatus :=
  if invitation.acceptedAt.isSome then .accepted
  else if invitation.revokedAt.isSome then .revoked
  else if invitation.expiresAt ≤ now then .expired
  else .pending

end MuxivoConsole
