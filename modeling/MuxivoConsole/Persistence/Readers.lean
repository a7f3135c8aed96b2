/-
The read statements of the SQLAlchemy adapters, one committed snapshot each,
and the translation of rows to domain values.  A malformed stored value reads
as `none`.
-/
import MuxivoConsole.Persistence.Writers
import Mathlib.Data.List.Sort

namespace MuxivoConsole

/-- `MembershipResourceScope(id=..., resource=..., action=...)` of a stored
scope row; `none` for an unknown resource or action. -/
def scopeFromRecord (id : UUID) (resource action : String) :
    Option MembershipResourceScope := do
  let resource ← StrEnum.parse? resource
  let action ← StrEnum.parse? action
  return { resource, action, id := some id }

/-- `_membership_from_record` -/
def membershipFromRecord (membership : OrganizationMembershipRecord)
    (scopes : List MembershipResourceScopeRecord) : Option OrganizationMembership := do
  let scopes ← scopes.mapM fun scope => scopeFromRecord scope.id scope.resource scope.action
  return {
    id := some membership.id
    actorId := membership.userId
    organizationId := membership.organizationId
    role := membership.role
    resourceScopes := FrozenSet.of scopes }

def invitationFromRecords (invitation : OrganizationInvitationRecord)
    (scopes : List OrganizationInvitationScopeRecord) : Option OrganizationInvitation := do
  let invitedByUserId ← invitation.invitedByUserId
  let scopes ← scopes.mapM fun scope => scopeFromRecord scope.id scope.resource scope.action
  (Validated.make OrganizationInvitationFields.postInit {
    id := invitation.id
    organizationId := invitation.organizationId
    invitedByUserId
    emailLookupHash := invitation.emailLookupHash
    emailHint := invitation.emailHint
    emailCiphertext := invitation.emailCiphertext
    tokenHash := invitation.tokenHash
    role := invitation.role
    resourceScopes := FrozenSet.of scopes
    expiresAt := invitation.expiresAt
    createdAt := invitation.createdAt
    acceptedAt := invitation.acceptedAt
    revokedAt := invitation.revokedAt
    deliveryStatus := invitation.deliveryStatus }).toOption

/-- `_capability_keys_from_record` -/
def capabilityKeysFromRecord (value : Option (List (String × Bool))) : List String :=
  match value with
  | none => []
  | some entries =>
      (entries.filter fun entry => !isBlank entry.1 && entry.2).map Prod.fst

/-- `ConnectionStatusReason(value) if value is not None else None` -/
def statusReasonFromRecord (value : Option String) :
    Option (Option ConnectionStatusReason) :=
  match value with
  | none => some none
  | some text => (StrEnum.parse? text).map some

/-- The `PlatformConnection` of a stored row, unless a value is malformed. -/
def connectionFromRecord (record : PlatformConnectionRecord) : Option PlatformConnection := do
  let platform ← StrEnum.parse? record.platform
  let statusReason ← statusReasonFromRecord record.statusReason
  (Validated.make PlatformConnectionFields.postInit {
    id := record.id
    organizationId := record.organizationId
    platform
    externalResourceId := record.externalResourceId
    status := record.status
    statusReason
    grantedCapabilities := capabilityKeysFromRecord record.grantedCapabilities }).toOption

namespace Database

/-- First statement of `get_membership`. -/
def membershipRow (database : Database) (actorId organizationId : UUID) :
    Option OrganizationMembershipRecord :=
  database.tables.organizationMemberships.find? fun row =>
    row.userId == actorId && row.organizationId == organizationId

/-- Second statement of `get_membership`. -/
def membershipScopes (database : Database) (membershipId : UUID) :
    List MembershipResourceScopeRecord :=
  database.tables.membershipResourceScopes.filter (·.membershipId == membershipId)

/-- The membership that one snapshot holds, row and scopes together. -/
def membership (database : Database) (actorId organizationId : UUID) :
    Option OrganizationMembership :=
  (database.membershipRow actorId organizationId).bind fun row =>
    membershipFromRecord row (database.membershipScopes row.id)

/-- `SqlAlchemyUserStatusReader.get_status` -/
def userStatus (database : Database) (userId : UUID) : Option UserStatus :=
  (database.tables.users.find? (·.id == userId)).map (·.status)

/-- `find_active_user_id_by_email_lookup_hash`: a join of `user_emails` and
`users`. -/
def activeUserIdByEmailLookupHash (database : Database) (emailLookupHash : String) :
    Option UUID := do
  let email ← database.tables.userEmails.find? (·.emailLookupHash == emailLookupHash)
  let user ← database.tables.users.find? fun user =>
    user.id == email.userId && user.status == .active
  return user.id

/-- `SqlAlchemyOrganizationListingReader.find_by_id` -/
def organizationById (database : Database) (organizationId : UUID) : Option Organization := do
  let record ← database.tables.organizations.find? (·.id == organizationId)
  (Validated.make OrganizationFields.postInit
    { id := record.id, name := record.name, slug := record.slug }).toOption

/-- First statement of `SqlAlchemyOrganizationInvitationReader.find_for_organization`. -/
def invitationRow (database : Database) (organizationId invitationId : UUID) :
    Option OrganizationInvitationRecord :=
  database.tables.organizationInvitations.find? fun row =>
    row.organizationId == organizationId && row.id == invitationId

/-- First statement of `find_pending_by_token_hash`. -/
def pendingInvitationRow (database : Database) (tokenHash : String) (now : Instant) :
    Option OrganizationInvitationRecord :=
  database.tables.organizationInvitations.find? fun row =>
    row.tokenHash == tokenHash && row.acceptedAt.isNone && row.revokedAt.isNone &&
      decide (row.expiresAt > now)

/-- `_scopes_for_invitations` -/
def invitationScopes (database : Database) (invitationId : UUID) :
    List OrganizationInvitationScopeRecord :=
  database.tables.organizationInvitationScopes.filter (·.invitationId == invitationId)

/-- `SqlAlchemyPlatformConnectionReader.find_for_organization` -/
def connectionForOrganization (database : Database) (organizationId connectionId : UUID) :
    Option PlatformConnection := do
  let record ← database.tables.platformConnections.find? fun row =>
    row.organizationId == organizationId && row.id == connectionId
  connectionFromRecord record

/-- `SqlAlchemyPlatformConnectionReader.list_reconcilable` -/
def reconcilableConnections (database : Database) (limit : Nat) : List PlatformConnection :=
  let records :=
    ((database.tables.platformConnections.filter (·.status != .disconnected)).insertionSort
      fun first second => first.id.int ≤ second.id.int).take limit
  records.filterMap connectionFromRecord

/-- `find_idempotent_lifecycle_result` -/
def idempotentLifecycleResult (database : Database) (organizationId : UUID)
    (idempotencyKey : String) : Option PlatformConnectionLifecycleIdempotencyResult := do
  let record ← database.tables.lifecycleIdempotency.find? fun row =>
    row.organizationId == organizationId && row.idempotencyKey == idempotencyKey
  let resultReason ← statusReasonFromRecord record.resultReason
  return {
    organizationId := record.organizationId
    connectionId := record.connectionId
    action := record.action
    resultStatus := record.resultStatus
    resultReason }

end Database

theorem connectionFromRecord_eq_some {record : PlatformConnectionRecord}
    {connection : PlatformConnection} (hread : connectionFromRecord record = some connection) :
    connection.fields.id = record.id ∧
      connection.fields.organizationId = record.organizationId ∧
      StrEnum.value connection.fields.platform = record.platform ∧
      connection.fields.externalResourceId = record.externalResourceId ∧
      connection.fields.status = record.status ∧
      connection.fields.statusReason.map StrEnum.value = record.statusReason := by
  simp only [connectionFromRecord, Option.bind_eq_bind, Option.bind_eq_some_iff] at hread
  obtain ⟨platform, hplatform, statusReason, hreason, hmake⟩ := hread
  have hfields := Validated.make_toOption_eq_some.mp hmake
  have htext : statusReason.map StrEnum.value = record.statusReason := by
    unfold statusReasonFromRecord at hreason
    split at hreason
    · rename_i hnone
      cases hreason
      rw [hnone]
      rfl
    · rename_i text hsome
      simp only [Option.map_eq_some_iff] at hreason
      obtain ⟨reason, hparse, rfl⟩ := hreason
      rw [hsome, Option.map_some, StrEnum.parse?_eq_some.mp hparse]
  rw [hfields]
  exact ⟨rfl, rfl, StrEnum.parse?_eq_some.mp hplatform, rfl, rfl, htext⟩

theorem scopeFromRecord_eq_some {id : UUID} {resource action : String}
    {scope : MembershipResourceScope} :
    scopeFromRecord id resource action = some scope ↔
      StrEnum.value scope.resource = resource ∧ StrEnum.value scope.action = action ∧
        scope.id = some id := by
  simp only [scopeFromRecord, Option.bind_eq_bind, Option.bind_eq_some_iff,
    StrEnum.parse?_eq_some]
  constructor
  · rintro ⟨parsed, hresource, verb, haction, hscope⟩
    cases hscope
    exact ⟨hresource, haction, rfl⟩
  · rintro ⟨hresource, haction, hid⟩
    refine ⟨scope.resource, hresource, scope.action, haction, ?_⟩
    cases scope
    simp only at hid
    rw [hid]
    rfl

end MuxivoConsole
