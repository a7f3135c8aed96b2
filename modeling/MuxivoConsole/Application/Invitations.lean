/-
Use cases for one-time organization invitations: invite, accept and revoke.
-/
import MuxivoConsole.Application.MemberManagement

namespace MuxivoConsole

open Interleaving

structure InviteOrganizationMemberCommand where
  actorId : UUID
  organizationId : UUID
  email : String
  role : OrganizationRole
  resourceScopes : List MembershipResourceScope
  correlationId : UUID
  deriving DecidableEq

structure AcceptOrganizationInvitationCommand where
  actorId : UUID
  rawToken : String
  correlationId : UUID
  deriving DecidableEq

structure RevokeOrganizationInvitationCommand where
  actorId : UUID
  organizationId : UUID
  invitationId : UUID
  correlationId : UUID
  deriving DecidableEq

structure OrganizationInvitationCreationResult where
  invitation : OrganizationInvitation
  deliveryStatus : OrganizationInvitationDeliveryStatus
  deriving DecidableEq

/-- `_masked_email_hint` -/
def maskedEmailHint (normalizedEmail : String) : Except Failure String :=
  let characters := normalizedEmail.toList
  let localPart := characters.takeWhile (· != '@')
  match characters.dropWhile (· != '@') with
  | [] => .error ⟨.valueError, "Normalized invitation email must contain a domain."⟩
  | _ :: domain =>
      match localPart with
      | [] => .error ⟨.indexError, "string index out of range"⟩
      | first :: others =>
          let maskLength := max 1 (min 3 others.length)
          .ok (String.ofList (first :: List.replicate maskLength '*' ++ '@' :: domain))

/-- `_is_usable_token` -/
def isUsableToken (token : String) : Bool :=
  !(token.length = 0 || token.length > 4096) && !token.toList.any isSpace

/-- `replace(invitation, delivery_status=...)` -/
def withDeliveryStatus (invitation : OrganizationInvitation)
    (deliveryStatus : OrganizationInvitationDeliveryStatus) : OrganizationInvitation :=
  ⟨{ invitation.fields with deliveryStatus := some deliveryStatus }, invitation.accepted⟩

/-- `lifetime`: seven days. -/
def invitationLifetime : Nat :=
  7 * 24 * 60 * 60 * 1000000

namespace UseCase

section Writers

/-- `_invitation_scope_record` -/
def invitationScopeRecord (invitationId id : UUID) (scope : MembershipResourceScope) :
    OrganizationInvitationScopeRecord where
  id := id
  invitationId := invitationId
  resource := StrEnum.value scope.resource
  action := StrEnum.value scope.action

/-- `SqlAlchemyOrganizationInvitationWriter.create`; the row starts neither
accepted nor revoked. -/
def createInvitation (invitation : OrganizationInvitation) (auditEvent : AuditEvent) :
    UseCase Bool := do
  let scopes ← orValueError (scopeRecords (invitationScopeRecord invitation.fields.id)
    "Invitation resource scopes require server-generated identifiers."
    invitation.fields.resourceScopes.elements)
  save (Write.createInvitation
    { id := invitation.fields.id
      organizationId := invitation.fields.organizationId
      invitedByUserId := some invitation.fields.invitedByUserId
      emailCiphertext := invitation.fields.emailCiphertext
      emailLookupHash := invitation.fields.emailLookupHash
      emailHint := invitation.fields.emailHint
      tokenHash := invitation.fields.tokenHash
      role := invitation.fields.role
      deliveryStatus := invitation.fields.deliveryStatus
      expiresAt := invitation.fields.expiresAt
      acceptedAt := none
      revokedAt := none
      createdAt := invitation.fields.createdAt } scopes auditEvent)

/-- `SqlAlchemyOrganizationInvitationWriter.accept` -/
def acceptInvitation (invitation : OrganizationInvitation)
    (membership : OrganizationMembership) (acceptedAt : Instant) (auditEvent : AuditEvent) :
    UseCase Bool :=
  match membership.id with
  | none =>
      Execution.raise ⟨.valueError, "Invitation acceptance requires a membership identifier."⟩
  | some id => do
      let scopes ← orValueError (scopeRecords (membershipScopeRecord id)
        "Membership resource scopes require server-generated identifiers."
        membership.resourceScopes.elements)
      save (Write.acceptInvitation invitation.fields.id invitation.fields.organizationId
        ⟨id, membership.organizationId, membership.actorId, membership.role⟩ scopes acceptedAt
        auditEvent)

end Writers

/-- `InviteOrganizationMember.execute` -/
def inviteOrganizationMember (ports : Ports) (command : InviteOrganizationMemberCommand) :
    UseCase OrganizationInvitationCreationResult := do
  let normalizedEmail ← normalizeEmail ports command.email
  let emailLookupHash := ports.lookupHash normalizedEmail
  let organization ← findOrganizationById command.organizationId
  let actor ← getMembership command.actorId command.organizationId
  match organization, actor with
  | some organization, some actor =>
      if !actor.role.canManageMembers || !actor.role.mayAssign command.role then
        Execution.raise ⟨.organizationInvitationRejected, "Invitation creation denied."⟩
      else if !(command.resourceScopes.filter fun scope =>
          !command.role.supportsScope scope).isEmpty then
        Execution.raise ⟨.organizationInvitationRejected,
          "Role does not support requested invitation scopes."⟩
      else do
        let rawToken ← issueToken
        let now ← now
        let id ← newIdentifier
        let emailHint ← orRaise (maskedEmailHint normalizedEmail)
        let emailCiphertext ← encryptEmail normalizedEmail
        let resourceScopes ← assignScopeIds command.resourceScopes
        let invitation ← orValueError (Validated.make OrganizationInvitationFields.postInit
          { id
            organizationId := command.organizationId
            invitedByUserId := command.actorId
            emailLookupHash
            emailHint
            emailCiphertext
            tokenHash := ports.hashToken rawToken
            role := command.role
            resourceScopes
            expiresAt := now + invitationLifetime
            createdAt := now })
        let auditId ← newIdentifier
        let created ← createInvitation invitation
          { id := auditId
            correlationId := command.correlationId
            actorId := some command.actorId
            organizationId := some command.organizationId
            action := "organization.member.invitation.created"
            resourceType := "organization_invitation"
            resourceId := some invitation.fields.id.str
            result := .succeeded }
        if !created then
          Execution.raise ⟨.organizationInvitationRejected, "Invitation could not be created."⟩
        else do
          let delivered ← sendInvitation invitation.fields.id organization.fields.name
            normalizedEmail (StrEnum.value invitation.fields.role) rawToken
            invitation.fields.expiresAt command.correlationId
          let deliveryStatus : OrganizationInvitationDeliveryStatus :=
            match delivered with
            | .ok true => .sent
            | .ok false => .unavailable
            | .error _ => .failed
          -- whether the status could be stored is only logged
          let _persisted ← save (Write.updateDeliveryStatus invitation.fields.id
            invitation.fields.organizationId deliveryStatus)
          pure ⟨withDeliveryStatus invitation deliveryStatus, deliveryStatus⟩
  | _, _ => Execution.raise ⟨.organizationInvitationRejected, "Invitation creation denied."⟩

/-- `_fresh_scope_ids` -/
def freshScopeIds (scopes : FrozenSet MembershipResourceScope) :
    UseCase (FrozenSet MembershipResourceScope) := do
  let scopes ← scopesWithIds (fun _ => newIdentifier) scopes.elements
  pure (FrozenSet.of scopes)

/-- Every rejection of `AcceptOrganizationInvitation` reads the same. -/
def rejectAcceptance {α : Type} : UseCase α :=
  Execution.raise ⟨.organizationInvitationAcceptanceRejected, "Invitation acceptance failed."⟩

/-- `AcceptOrganizationInvitation.execute` -/
def acceptOrganizationInvitation (ports : Ports)
    (command : AcceptOrganizationInvitationCommand) : UseCase OrganizationMembership :=
  if !isUsableToken command.rawToken then rejectAcceptance
  else do
    let now ← now
    let invitation ← findPendingByTokenHash (ports.hashToken command.rawToken) now
    match invitation with
    | none => rejectAcceptance
    | some invitation =>
        if invitation.fields.statusAt now ≠ .pending then rejectAcceptance
        else do
          let invitedUserId ←
            findActiveUserIdByEmailLookupHash invitation.fields.emailLookupHash
          if invitedUserId ≠ some command.actorId then rejectAcceptance
          else do
            let status ← getUserStatus command.actorId
            if status ≠ some .active then rejectAcceptance
            else do
              let existing ← getMembership command.actorId invitation.fields.organizationId
              if existing.isSome then rejectAcceptance
              else do
                let id ← newIdentifier
                let resourceScopes ← freshScopeIds invitation.fields.resourceScopes
                let membership : OrganizationMembership :=
                  { id := some id
                    actorId := command.actorId
                    organizationId := invitation.fields.organizationId
                    role := invitation.fields.role
                    resourceScopes }
                let auditId ← newIdentifier
                let accepted ← acceptInvitation invitation membership now
                  { id := auditId
                    correlationId := command.correlationId
                    actorId := some command.actorId
                    organizationId := some invitation.fields.organizationId
                    action := "organization.member.invitation.accepted"
                    resourceType := "organization_invitation"
                    resourceId := some invitation.fields.id.str
                    result := .succeeded }
                if !accepted then rejectAcceptance
                else pure membership

/-- `RevokeOrganizationInvitation.execute`; the clock is read once for the
status and once more for the write. -/
def revokeOrganizationInvitation (command : RevokeOrganizationInvitationCommand) :
    UseCase Unit := do
  let actor ← getMembership command.actorId command.organizationId
  let invitation ← findInvitationForOrganization command.organizationId command.invitationId
  match actor, invitation with
  | some actor, some invitation =>
      if !actor.role.canManageMembers || !actor.role.mayAssign invitation.fields.role then
        Execution.raise ⟨.organizationInvitationRevocationRejected,
          "Invitation revocation denied."⟩
      else do
        let instant ← now
        if invitation.fields.statusAt instant ≠ .pending then
          Execution.raise ⟨.organizationInvitationRevocationRejected,
            "Invitation revocation denied."⟩
        else do
          let revokedAt ← now
          let auditId ← newIdentifier
          let revoked ← save (Write.revokeInvitation invitation.fields.id
            invitation.fields.organizationId revokedAt
            { id := auditId
              correlationId := command.correlationId
              actorId := some command.actorId
              organizationId := some command.organizationId
              action := "organization.member.invitation.revoked"
              resourceType := "organization_invitation"
              resourceId := some invitation.fields.id.str
              result := .succeeded })
          if !revoked then
            Execution.raise ⟨.organizationInvitationRevocationRejected,
              "Invitation revocation failed."⟩
          else pure ()
  | _, _ =>
      Execution.raise ⟨.organizationInvitationRevocationRejected,
        "Invitation revocation denied."⟩

end UseCase

end MuxivoConsole
