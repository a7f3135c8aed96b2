/-
What a use case has seen by the time it asks for a write or drives a platform.
The knowledge is about the past: the rows were committed when they were read,
and nothing here says that they still are.
-/
import MuxivoConsole.Application.Console

namespace MuxivoConsole

open Interleaving

/-- The role supports a scope as it is stored, in text. -/
def OrganizationRole.supportsStored (role : OrganizationRole) (resource action : String) :
    Bool :=
  match (StrEnum.parse? resource : Option AuthorizationResource),
    (StrEnum.parse? action : Option AuthorizationAction) with
  | some resource, some action => role.supportsPair resource action
  | _, _ => false

theorem OrganizationRole.supportsStored_value (role : OrganizationRole)
    (resource : AuthorizationResource) (action : AuthorizationAction) :
    role.supportsStored (StrEnum.value resource) (StrEnum.value action) =
      role.supportsPair resource action := by
  simp [supportsStored]

section Sightings

variable (history : ConsoleHistory)

/-- A row of a table that was read since the last commit of this program. -/
def Saw {ρ : Type} (table : Tables → List ρ) (row : ρ) : Prop :=
  ∃ world ∈ recent history, row ∈ table world.store.tables

abbrev SawMembership (row : OrganizationMembershipRecord) : Prop :=
  Saw history Tables.organizationMemberships row

abbrev SawInvitation (row : OrganizationInvitationRecord) : Prop :=
  Saw history Tables.organizationInvitations row

abbrev SawInvitationScope (row : OrganizationInvitationScopeRecord) : Prop :=
  Saw history Tables.organizationInvitationScopes row

abbrev SawConnection (row : PlatformConnectionRecord) : Prop :=
  Saw history Tables.platformConnections row

/-- A membership put together from two snapshots, its row and its scopes. -/
def SawTornMembership (actorId organizationId : UUID)
    (membership : OrganizationMembership) : Prop :=
  ∃ first ∈ recent history, ∃ second ∈ recent history, ∃ row,
    first.store.membershipRow actorId organizationId = some row ∧
      membershipFromRecord row (second.store.membershipScopes row.id) = some membership

/-- The membership was read by the two statements that extend `history`. -/
def TornRead (actorId organizationId : UUID) (after : ConsoleHistory)
    (membership : OrganizationMembership) : Prop :=
  ∃ moment, ∃ first : ConsoleWorld, ∃ moment', ∃ second : ConsoleWorld, ∃ row,
    after = history ++ [.saw moment first, .saw moment' second] ∧
      first.store.membershipRow actorId organizationId = some row ∧
        membershipFromRecord row (second.store.membershipScopes row.id) = some membership

/-- The actor was read as a managing member who may grant `role`. -/
def SawManager (actorId organizationId : UUID) (role : OrganizationRole)
    (actor : OrganizationMembershipRecord) : Prop :=
  SawMembership history actor ∧ actor.userId = actorId ∧
    actor.organizationId = organizationId ∧ actor.role.canManageMembers = true ∧
      actor.role.mayAssign role = true

end Sightings

/-- The scope rows belong to the membership and its role supports them. -/
def ScopesFit (membershipId : UUID) (role : OrganizationRole)
    (scopes : List MembershipResourceScopeRecord) : Prop :=
  ∀ scope ∈ scopes,
    scope.membershipId = membershipId ∧ role.supportsStored scope.resource scope.action = true

structure MayCreate (command : CreateOrganizationCommand) (history : ConsoleHistory)
    (organization : OrganizationRecord) (ownerMembership : OrganizationMembershipRecord) :
    Prop where
  organization : ownerMembership.organizationId = organization.id
  user : ownerMembership.userId = command.actorId
  role : ownerMembership.role = .owner
  fresh : ownerMembership.id ∈ held history

structure MayAdd (command : AddOrganizationMemberCommand) (history : ConsoleHistory)
    (membership : OrganizationMembershipRecord)
    (scopes : List MembershipResourceScopeRecord) : Prop where
  organization : membership.organizationId = command.organizationId
  role : membership.role = command.role
  fresh : membership.id ∈ held history
  authority : ∃ actor,
    SawManager history command.actorId command.organizationId command.role actor
  scopes : ScopesFit membership.id command.role scopes

/-- The target row of an update or a removal, as it was read. -/
structure SawTarget (history : ConsoleHistory) (membershipId userId organizationId : UUID)
    (actorRole : OrganizationRole) (target : OrganizationMembershipRecord) : Prop where
  saw : SawMembership history target
  id : target.id = membershipId
  user : target.userId = userId
  organization : target.organizationId = organizationId
  below : actorRole.mayAssign target.role = true

structure MayUpdate (command : UpdateOrganizationMemberCommand) (history : ConsoleHistory)
    (membershipId : UUID) (role : OrganizationRole)
    (scopes : List MembershipResourceScopeRecord) : Prop where
  role : role = command.role
  others : command.userId ≠ command.actorId
  authority : ∃ actor target,
    SawManager history command.actorId command.organizationId command.role actor ∧
      SawTarget history membershipId command.userId command.organizationId actor.role target
  scopes : ScopesFit membershipId command.role scopes

structure MayRemove (command : RemoveOrganizationMemberCommand) (history : ConsoleHistory)
    (membershipId : UUID) : Prop where
  others : command.userId ≠ command.actorId
  authority : ∃ actor target, SawMembership history actor ∧
    actor.userId = command.actorId ∧ actor.organizationId = command.organizationId ∧
      actor.role.canManageMembers = true ∧
        SawTarget history membershipId command.userId command.organizationId actor.role target

structure MayInvite (ports : Ports) (command : InviteOrganizationMemberCommand)
    (history : ConsoleHistory) (invitation : OrganizationInvitationRecord)
    (scopes : List OrganizationInvitationScopeRecord) : Prop where
  organization : invitation.organizationId = command.organizationId
  inviter : invitation.invitedByUserId = some command.actorId
  role : invitation.role = command.role
  pending : invitation.acceptedAt = none ∧ invitation.revokedAt = none
  email : ∃ normalized, ports.normalizeEmail command.email = some normalized ∧
    invitation.emailLookupHash = ports.lookupHash normalized
  authority : ∃ actor,
    SawManager history command.actorId command.organizationId command.role actor
  scopes : ∀ scope ∈ scopes, scope.invitationId = invitation.id ∧
    command.role.supportsStored scope.resource scope.action = true

structure MayAccept (command : AcceptOrganizationInvitationCommand)
    (history : ConsoleHistory) (invitation : OrganizationInvitationRecord)
    (membership : OrganizationMembershipRecord)
    (scopes : List MembershipResourceScopeRecord) : Prop where
  saw : SawInvitation history invitation
  organization : membership.organizationId = invitation.organizationId
  user : membership.userId = command.actorId
  role : membership.role = invitation.role
  inviter : ∃ inviterId, invitation.invitedByUserId = some inviterId
  fresh : membership.id ∈ held history
  email : ∃ world ∈ recent history,
    world.store.activeUserIdByEmailLookupHash invitation.emailLookupHash =
      some command.actorId
  scopes : ∀ scope ∈ scopes, scope.membershipId = membership.id ∧
    ∃ source, SawInvitationScope history source ∧ source.invitationId = invitation.id ∧
      source.resource = scope.resource ∧ source.action = scope.action

structure MayConnect (command : ConnectPlatformConnectionCommand)
    (connection : PlatformConnectionRecord) : Prop where
  organization : connection.organizationId = command.organizationId
  platform : connection.platform = StrEnum.value command.platform
  externalResource : connection.externalResourceId = strip command.externalResourceId
  status : connection.status = .pending

/-- The retry key that a browser's header stands for, if it stands for one. -/
def retryKey (value : Option String) : Option String :=
  value.bind fun value => if strip value = "" then none else some (strip value)

/-- The retry result that a lifecycle write stores along with the change. -/
def lifecycleRecord (command : ManagePlatformConnectionLifecycleCommand) (key : String) :
    PlatformConnectionLifecycleIdempotencyRecord where
  organizationId := command.organizationId
  idempotencyKey := key
  connectionId := command.connectionId
  action := command.action
  resultStatus := command.action.targetStatus
  resultReason := some (StrEnum.value command.action.statusReason)

structure MayChange (command : ManagePlatformConnectionLifecycleCommand)
    (history : ConsoleHistory) : Prop where
  authority : ∃ membership,
    SawTornMembership history command.actorId command.organizationId membership ∧
      membership.allows
        (UseCase.manageConnections command.actorId command.organizationId) = true
  allowed : ∃ current, SawConnection history current ∧ current.id = command.connectionId ∧
    current.organizationId = command.organizationId ∧
      command.action.targetStatus ∈ allowedTransitions current.status

/-- A connection was listed, and since then this program changed only others. -/
def ListedAndUntouched (history : ConsoleHistory) (connection : PlatformConnection) : Prop :=
  ∃ earlier moment later, ∃ world : ConsoleWorld, ∃ row,
    history = earlier ++ .saw moment world :: later ∧
      row ∈ world.store.tables.platformConnections ∧
        connectionFromRecord row = some connection ∧
          ∀ write : Write, @Observation.wrote console write true ∈ later →
            ∃ connectionId organizationId status reason auditEvent,
              write = .updateStatus connectionId organizationId status reason none auditEvent ∧
                connectionId ≠ connection.fields.id

/-- The probe's word for a decision, or the failure that stands for it. -/
def Decides (answer : Except Failure ConnectionReconciliationDecision)
    (decision : ConnectionReconciliationDecision) : Prop :=
  answer = .ok decision ∨
    decision = platformUnreachable ∧
      ∃ message, answer = .error ⟨.platformControlUnavailable, message⟩

structure MayReconcile (command : ReconcilePlatformConnectionsCommand)
    (history : ConsoleHistory) (connection : PlatformConnection)
    (decision : ConnectionReconciliationDecision) : Prop where
  listed : ListedAndUntouched history connection
  probed : ∃ earlier auditId, ∃ answer : Except Failure ConnectionReconciliationDecision,
    history = earlier ++
        [@Observation.heard console
          (Call.inspectConnection connection command.correlationId) answer,
          .drew auditId] ∧
      Decides answer decision
  allowed : decision.targetStatus ∈ allowedTransitions connection.fields.status

structure MayUpdatePlatform (history : ConsoleHistory) (organizationId actorId : UUID)
    (externalResourceId : String) : Prop where
  owner : ∃ row, SawMembership history row ∧ row.userId = actorId ∧
    row.organizationId = organizationId ∧ row.role = .owner
  active : ∃ row, SawConnection history row ∧ row.organizationId = organizationId ∧
    row.platform = StrEnum.value Platform.discord ∧
      row.externalResourceId = externalResourceId ∧ row.status = .active

/-- Organization and actor of a platform update. -/
def Request.platformUpdate : Request → Option (UUID × UUID)
  | .updatePlatformAiModerationPolicy command =>
      some (command.organizationId, command.principal.userId)
  | .updatePlatformChannelPurpose command => some (command.organizationId, command.actorId)
  | .updatePlatformWelcomeSettings command => some (command.organizationId, command.actorId)
  | _ => none

/-- Which writes and calls a use case asks for, and what it knows then. -/
inductive Justified (ports : Ports) : Request → ConsoleHistory → Action console → Prop
  | register {command history user identity email credential auditEvent}
      (huser : email.userId = user.id) :
      Justified ports (.completeEmailPasswordRegistration command) history
        (.commit (Write.register user identity email credential auditEvent))
  | create {command history organization ownerMembership auditEvent}
      (hmay : MayCreate command history organization ownerMembership) :
      Justified ports (.createOrganization command) history
        (.commit (Write.createOrganization organization ownerMembership auditEvent))
  | add {command history membership scopes auditEvent}
      (hmay : MayAdd command history membership scopes) :
      Justified ports (.addOrganizationMember command) history
        (.commit (Write.addMember membership scopes auditEvent))
  | update {command history membershipId role scopes auditEvent}
      (hmay : MayUpdate command history membershipId role scopes) :
      Justified ports (.updateOrganizationMember command) history
        (.commit (Write.updateMember membershipId role scopes auditEvent))
  | remove {command history membershipId auditEvent}
      (hmay : MayRemove command history membershipId) :
      Justified ports (.removeOrganizationMember command) history
        (.commit (Write.removeMember membershipId auditEvent))
  | invite {command history invitation scopes auditEvent}
      (hmay : MayInvite ports command history invitation scopes) :
      Justified ports (.inviteOrganizationMember command) history
        (.commit (Write.createInvitation invitation scopes auditEvent))
  | deliver {command history invitationId organizationId deliveryStatus} :
      Justified ports (.inviteOrganizationMember command) history
        (.commit (Write.updateDeliveryStatus invitationId organizationId deliveryStatus))
  | accept {command history invitation membership scopes acceptedAt auditEvent}
      (hmay : MayAccept command history invitation membership scopes) :
      Justified ports (.acceptOrganizationInvitation command) history
        (.commit (Write.acceptInvitation invitation.id invitation.organizationId membership
          scopes acceptedAt auditEvent))
  | revokeInvitation {command history invitationId organizationId revokedAt auditEvent} :
      Justified ports (.revokeOrganizationInvitation command) history
        (.commit
          (Write.revokeInvitation invitationId organizationId revokedAt auditEvent))
  | connect {command history connection auditEvent} (hmay : MayConnect command connection) :
      Justified ports (.connectPlatformConnection command) history
        (.commit (Write.createConnection connection auditEvent))
  | change {command history auditEvent} (hmay : MayChange command history) :
      Justified ports (.managePlatformConnectionLifecycle command) history
        (.commit (Write.updateStatus command.connectionId command.organizationId
          command.action.targetStatus (some command.action.statusReason)
          ((retryKey command.idempotencyKey).map (lifecycleRecord command)) auditEvent))
  | reconcile {command history connection decision auditEvent}
      (hmay : MayReconcile command history connection decision) :
      Justified ports (.reconcilePlatformConnections command) history
        (.commit (Write.updateStatus connection.fields.id connection.fields.organizationId
          decision.targetStatus (some decision.reason.statusReason) none auditEvent))
  | audit {command history event} :
      Justified ports (.updatePlatformAiModerationPolicy command) history
        (.commit (Write.recordAuditEvent event))
  | updatePlatform {request history organizationId actorId externalResourceId update
      correlationId}
      (hrequest : request.platformUpdate = some (organizationId, actorId))
      (hmay : MayUpdatePlatform history organizationId actorId externalResourceId) :
      Justified ports request history
        (.call
          (Call.updatePlatform organizationId actorId externalResourceId update
            correlationId))
  | call {request history} {call : Call}
      (hother : ∀ organizationId actorId externalResourceId update correlationId,
        call ≠ .updatePlatform organizationId actorId externalResourceId update
          correlationId) :
      Justified ports request history (.call call)

section Monotonicity

variable {before after : ConsoleHistory}

theorem TornRead.saw {actorId organizationId : UUID} {membership : OrganizationMembership}
    (htorn : TornRead before actorId organizationId after membership) :
    SawTornMembership after actorId organizationId membership := by
  obtain ⟨moment, first, moment', second, row, rfl, hrow, hread⟩ := htorn
  have hsecond : Quiet (before ++ [.saw moment first])
      (before ++ [.saw moment first] ++ [.saw moment' second]) := Quiet.saw _ _ _
  rw [List.append_assoc] at hsecond
  have hlast := mem_recent_saw (before ++ [.saw moment first]) moment' second
  rw [List.append_assoc] at hlast
  exact ⟨first, hsecond.recent (mem_recent_saw _ _ _), second, hlast, row, hrow, hread⟩

theorem Saw.mono {ρ : Type} {table : Tables → List ρ} {row : ρ}
    (hsaw : Saw before table row) (hquiet : Quiet before after) : Saw after table row := by
  obtain ⟨world, hworld, hrow⟩ := hsaw
  exact ⟨world, hquiet.recent hworld, hrow⟩

theorem SawTornMembership.mono {actorId organizationId : UUID}
    {membership : OrganizationMembership}
    (hsaw : SawTornMembership before actorId organizationId membership)
    (hquiet : Quiet before after) :
    SawTornMembership after actorId organizationId membership := by
  obtain ⟨first, hfirst, second, hsecond, row, hrow⟩ := hsaw
  exact ⟨first, hquiet.recent hfirst, second, hquiet.recent hsecond, row, hrow⟩

end Monotonicity

section Alone

variable {history : ConsoleHistory} {start store : Database}

/-- Alone, a membership that was put together from two snapshots is stored. -/
theorem SawTornMembership.stored (hreplays : Replays (I := console) start history store)
    {actorId organizationId : UUID} {membership : OrganizationMembership}
    (hsaw : SawTornMembership history actorId organizationId membership) :
    store.membership actorId organizationId = some membership := by
  obtain ⟨first, hfirst, second, hsecond, row, hrow, hread⟩ := hsaw
  rw [hreplays.recent first hfirst] at hrow
  rw [hreplays.recent second hsecond] at hread
  rw [Database.membership, hrow]
  exact hread

/-- Alone, a row that was read is still stored. -/
theorem Saw.stored (hreplays : Replays (I := console) start history store) {ρ : Type}
    {table : Tables → List ρ} {row : ρ} (hsaw : Saw history table row) :
    row ∈ table store.tables := by
  obtain ⟨world, hworld, hrow⟩ := hsaw
  rw [hreplays.recent world hworld] at hrow
  exact hrow

end Alone

end MuxivoConsole
