/-
Use cases that create accounts and organizations and manage the members of an
organization.
-/
import MuxivoConsole.Application.Ports

namespace MuxivoConsole

open Interleaving

structure CompleteEmailPasswordRegistrationCommand where
  normalizedEmail : String
  displayName : String
  passwordHash : String
  correlationId : UUID
  deriving DecidableEq

structure CreateOrganizationCommand where
  actorId : UUID
  name : String
  correlationId : UUID
  deriving DecidableEq

structure AddOrganizationMemberCommand where
  actorId : UUID
  organizationId : UUID
  email : String
  role : OrganizationRole
  resourceScopes : List MembershipResourceScope
  correlationId : UUID
  deriving DecidableEq

structure UpdateOrganizationMemberCommand where
  actorId : UUID
  organizationId : UUID
  userId : UUID
  role : OrganizationRole
  resourceScopes : List MembershipResourceScope
  correlationId : UUID
  deriving DecidableEq

structure RemoveOrganizationMemberCommand where
  actorId : UUID
  organizationId : UUID
  userId : UUID
  correlationId : UUID
  deriving DecidableEq

namespace UseCase

section Writers

/-- The rows of a set of scopes.  `row` is given the scope's identifier; a
scope without one is a `ValueError`. -/
def scopeRecords {ρ : Type} (row : UUID → MembershipResourceScope → ρ) (message : String) :
    List MembershipResourceScope → Except String (List ρ)
  | [] => .ok []
  | scope :: rest =>
      match scope.id with
      | none => .error message
      | some id => (scopeRecords row message rest).map (row id scope :: ·)

/-- `_scope_record` of the member repository and `_membership_scope_record` of
the invitation writer. -/
def membershipScopeRecord (membershipId id : UUID) (scope : MembershipResourceScope) :
    MembershipResourceScopeRecord where
  id := id
  membershipId := membershipId
  resource := StrEnum.value scope.resource
  action := StrEnum.value scope.action

/-- `SqlAlchemyEmailPasswordRegistrationWriter.register` -/
def register (registration : EmailPasswordRegistration) (auditEvent : AuditEvent) :
    UseCase Bool :=
  let user := registration.fields.user.fields
  let identity := registration.fields.identity.fields
  let email := registration.fields.email.fields
  let credential := registration.fields.passwordCredential.fields
  save (Write.register
    ⟨user.id, user.status, user.displayName⟩
    ⟨identity.id, identity.userId, StrEnum.value identity.provider, identity.providerSubject⟩
    ⟨email.id, email.userId, email.ciphertext, email.lookupHash, email.isPrimary⟩
    { userId := credential.userId, passwordHash := credential.passwordHash } auditEvent)

/-- `SqlAlchemyOrganizationCreationWriter.create` -/
def createOrganizationRecord (organization : Organization)
    (ownerMembership : OrganizationMembership) (auditEvent : AuditEvent) : UseCase Bool :=
  match ownerMembership.id with
  | none =>
      Execution.raise ⟨.valueError,
        "Organization creation requires a server-generated membership identifier."⟩
  | some id =>
      save (Write.createOrganization
        ⟨organization.fields.id, organization.fields.name, organization.fields.slug⟩
        ⟨id, ownerMembership.organizationId, ownerMembership.actorId, ownerMembership.role⟩
        auditEvent)

/-- `SqlAlchemyOrganizationMemberRepository.add_member` -/
def addMember (membership : OrganizationMembership) (auditEvent : AuditEvent) :
    UseCase Bool :=
  match membership.id with
  | none =>
      Execution.raise ⟨.valueError,
        "Adding an organization member requires a membership identifier."⟩
  | some id => do
      let scopes ← orValueError (scopeRecords (membershipScopeRecord id)
        "Membership resource scopes must have server-generated identifiers."
        membership.resourceScopes.elements)
      save (Write.addMember
        ⟨id, membership.organizationId, membership.actorId, membership.role⟩ scopes auditEvent)

/-- `SqlAlchemyOrganizationMemberRepository.update_member` -/
def updateMember (membership : OrganizationMembership) (auditEvent : AuditEvent) :
    UseCase Bool :=
  match membership.id with
  | none =>
      Execution.raise ⟨.valueError,
        "Updating an organization member requires a membership identifier."⟩
  | some id => do
      let scopes ← orValueError (scopeRecords (membershipScopeRecord id)
        "Membership resource scopes must have server-generated identifiers."
        membership.resourceScopes.elements)
      save (Write.updateMember id membership.role scopes auditEvent)

/-- `SqlAlchemyOrganizationMemberRepository.remove_member` -/
def removeMember (membershipId : UUID) (auditEvent : AuditEvent) : UseCase Bool :=
  save (Write.removeMember membershipId auditEvent)

end Writers

section Helpers

/-- Copy scopes, taking each identifier from `identify`. -/
def scopesWithIds (identify : MembershipResourceScope → UseCase UUID) :
    List MembershipResourceScope → UseCase (List MembershipResourceScope)
  | [] => pure []
  | scope :: rest => do
      let id ← identify scope
      let scopes ← scopesWithIds identify rest
      pure ({ scope with id := some id } :: scopes)

/-- `assign_scope_ids`: `scope.id or identifiers.new()`. -/
def assignScopeIds (scopes : List MembershipResourceScope) :
    UseCase (FrozenSet MembershipResourceScope) := do
  let scopes ← scopesWithIds (fun scope =>
    match scope.id with
    | some id => pure id
    | none => newIdentifier) scopes
  pure (FrozenSet.of scopes)

/-- `require_actor_can_manage` -/
def requireActorCanManage (actorId organizationId : UUID) (targetRole : OrganizationRole) :
    UseCase OrganizationMembership := do
  let actor ← getMembership actorId organizationId
  match actor with
  | none =>
      Execution.raise ⟨.organizationMemberManagementRejected, "Member management denied."⟩
  | some actor =>
      if !actor.role.canManageMembers || !actor.role.mayAssign targetRole then
        Execution.raise ⟨.organizationMemberManagementRejected, "Member management denied."⟩
      else pure actor

/-- `reject_scopes_not_supported_by_role` -/
def rejectScopesNotSupportedByRole (role : OrganizationRole)
    (scopes : List MembershipResourceScope) : UseCase Unit :=
  if (scopes.filter fun scope => !role.supportsScope scope).isEmpty then pure ()
  else
    Execution.raise ⟨.organizationMemberManagementRejected,
      "Role does not support requested scopes."⟩

/-- `create_member_audit_event` -/
def createMemberAuditEvent (correlationId actorId organizationId : UUID) (action : String)
    (targetUserId : UUID) (named : action ≠ "" ∧ "organization_member" ≠ "") :
    UseCase AuditEvent := do
  let id ← newIdentifier
  pure {
    id
    correlationId
    actorId := some actorId
    organizationId := some organizationId
    action
    resourceType := "organization_member"
    resourceId := some targetUserId.str
    result := .succeeded
    named }

end Helpers

/-- `CompleteEmailPasswordRegistration.execute` -/
def completeEmailPasswordRegistration (ports : Ports)
    (command : CompleteEmailPasswordRegistrationCommand) : UseCase UUID := do
  let normalizedEmail ← normalizeEmail ports command.normalizedEmail
  if !isArgon2id command.passwordHash then
    Execution.raise ⟨.emailPasswordRegistrationRejected,
      "Registration could not be completed."⟩
  else
    let userId ← newIdentifier
    let lookupHash := ports.lookupHash normalizedEmail
    let user ← orValueError (Validated.make UserFields.postInit
      { id := userId, status := .active, displayName := command.displayName })
    let identityId ← newIdentifier
    let identity ← orValueError (Validated.make LoginIdentityFields.postInit
      { id := identityId, userId, provider := .email, providerSubject := lookupHash })
    let emailId ← newIdentifier
    let ciphertext ← encryptEmail normalizedEmail
    let email ← orValueError (Validated.make UserEmailFields.postInit
      { id := emailId, userId, ciphertext, lookupHash })
    let passwordCredential ← orValueError (Validated.make PasswordCredentialFields.postInit
      { userId, passwordHash := command.passwordHash })
    let registration ← orValueError (Validated.make EmailPasswordRegistrationFields.postInit
      { user, identity, email, passwordCredential })
    let auditId ← newIdentifier
    let created ← register registration {
      id := auditId
      correlationId := command.correlationId
      actorId := some userId
      organizationId := none
      action := "auth.email_password_registration_verified"
      resourceType := "user"
      resourceId := some userId.str
      result := .succeeded }
    if !created then
      Execution.raise ⟨.emailPasswordRegistrationRejected,
        "Registration could not be completed."⟩
    else pure userId

/-- `CreateOrganization.execute` -/
def createOrganization (command : CreateOrganizationCommand) : UseCase Organization := do
  let status ← getUserStatus command.actorId
  if status ≠ some .active then
    Execution.raise ⟨.organizationCreationRejected,
      "The user is not allowed to create an organization."⟩
  else
    let id ← newIdentifier
    let slug ← generateSlug command.name
    let organization ← orValueError (Validated.make OrganizationFields.postInit
      { id, name := command.name, slug })
    let membershipId ← newIdentifier
    let auditId ← newIdentifier
    let created ← createOrganizationRecord organization
      { actorId := command.actorId
        organizationId := organization.fields.id
        role := .owner
        id := some membershipId }
      { id := auditId
        correlationId := command.correlationId
        actorId := some command.actorId
        organizationId := some organization.fields.id
        action := "organization.create"
        resourceType := "organization"
        resourceId := some organization.fields.id.str
        result := .succeeded }
    if !created then
      Execution.raise ⟨.organizationCreationRejected, "The organization could not be created."⟩
    else pure organization

/-- `AddOrganizationMember.execute` -/
def addOrganizationMember (ports : Ports) (command : AddOrganizationMemberCommand) :
    UseCase OrganizationMembership := do
  let normalizedEmail ← normalizeEmail ports command.email
  let emailLookupHash := ports.lookupHash normalizedEmail
  let _actor ← requireActorCanManage command.actorId command.organizationId command.role
  rejectScopesNotSupportedByRole command.role command.resourceScopes
  let targetUserId ← findActiveUserIdByEmailLookupHash emailLookupHash
  match targetUserId with
  | none =>
      Execution.raise ⟨.organizationMemberManagementRejected, "Invitee user is unavailable."⟩
  | some targetUserId => do
      let status ← getUserStatus targetUserId
      if status ≠ some .active then
        Execution.raise ⟨.organizationMemberManagementRejected, "Target user is not active."⟩
      else
        let id ← newIdentifier
        let resourceScopes ← assignScopeIds command.resourceScopes
        let membership : OrganizationMembership :=
          { id := some id
            actorId := targetUserId
            organizationId := command.organizationId
            role := command.role
            resourceScopes }
        let auditEvent ← createMemberAuditEvent command.correlationId command.actorId
          command.organizationId "organization.member.add" targetUserId (by decide)
        let created ← addMember membership auditEvent
        if !created then
          Execution.raise ⟨.organizationMemberManagementRejected, "Member could not be added."⟩
        else pure membership

/-- `UpdateOrganizationMember.execute` -/
def updateOrganizationMember (command : UpdateOrganizationMemberCommand) :
    UseCase OrganizationMembership := do
  let actor ← requireActorCanManage command.actorId command.organizationId command.role
  rejectScopesNotSupportedByRole command.role command.resourceScopes
  let target ← getMembership command.userId command.organizationId
  match target with
  | none =>
      Execution.raise ⟨.organizationMemberManagementRejected, "Member update denied."⟩
  | some target =>
      if target.id.isNone || target.actorId == actor.actorId ||
          !actor.role.mayAssign target.role then
        Execution.raise ⟨.organizationMemberManagementRejected, "Member update denied."⟩
      else do
        let resourceScopes ← assignScopeIds command.resourceScopes
        let updated : OrganizationMembership :=
          { id := target.id
            actorId := target.actorId
            organizationId := target.organizationId
            role := command.role
            resourceScopes }
        let auditEvent ← createMemberAuditEvent command.correlationId command.actorId
          command.organizationId "organization.member.update" command.userId (by decide)
        let saved ← updateMember updated auditEvent
        if !saved then
          Execution.raise ⟨.organizationMemberManagementRejected, "Member update failed."⟩
        else pure updated

/-- `RemoveOrganizationMember.execute` -/
def removeOrganizationMember (command : RemoveOrganizationMemberCommand) : UseCase Unit := do
  let actor ← getMembership command.actorId command.organizationId
  let target ← getMembership command.userId command.organizationId
  match actor, target with
  | some actor, some ⟨targetActorId, _, targetRole, _, some targetId⟩ =>
      if targetActorId == actor.actorId || !actor.role.canManageMembers ||
          !actor.role.mayAssign targetRole then
        Execution.raise ⟨.organizationMemberManagementRejected, "Member removal denied."⟩
      else do
        let auditEvent ← createMemberAuditEvent command.correlationId command.actorId
          command.organizationId "organization.member.remove" command.userId (by decide)
        let removed ← removeMember targetId auditEvent
        if !removed then
          Execution.raise ⟨.organizationMemberManagementRejected, "Member removal failed."⟩
        else pure ()
  | _, _ =>
      Execution.raise ⟨.organizationMemberManagementRejected, "Member removal denied."⟩

end UseCase

end MuxivoConsole
