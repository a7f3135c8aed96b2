/-
The write transactions of the SQLAlchemy adapters.  A transaction carries the
rows it inserts and the keys it updates or deletes by; it runs its statements,
stops when a guarded statement does not touch exactly one row, and commits if
the result violates no constraint.
-/
import MuxivoConsole.Persistence.Database

namespace MuxivoConsole

open Relational

inductive Write where
  /-- `SqlAlchemyEmailPasswordRegistrationWriter.register` -/
  | register (user : UserRecord) (identity : LoginIdentityRecord) (email : UserEmailRecord)
      (credential : PasswordCredentialRecord) (auditEvent : AuditEvent)
  /-- `SqlAlchemyOrganizationCreationWriter.create` -/
  | createOrganization (organization : OrganizationRecord)
      (ownerMembership : OrganizationMembershipRecord) (auditEvent : AuditEvent)
  /-- `SqlAlchemyOrganizationMemberRepository.add_member` -/
  | addMember (membership : OrganizationMembershipRecord)
      (scopes : List MembershipResourceScopeRecord) (auditEvent : AuditEvent)
  /-- `SqlAlchemyOrganizationMemberRepository.update_member` -/
  | updateMember (membershipId : UUID) (role : OrganizationRole)
      (scopes : List MembershipResourceScopeRecord) (auditEvent : AuditEvent)
  /-- `SqlAlchemyOrganizationMemberRepository.remove_member` -/
  | removeMember (membershipId : UUID) (auditEvent : AuditEvent)
  /-- `SqlAlchemyOrganizationInvitationWriter.create` -/
  | createInvitation (invitation : OrganizationInvitationRecord)
      (scopes : List OrganizationInvitationScopeRecord) (auditEvent : AuditEvent)
  /-- `SqlAlchemyOrganizationInvitationWriter.update_delivery_status` -/
  | updateDeliveryStatus (invitationId organizationId : UUID)
      (deliveryStatus : OrganizationInvitationDeliveryStatus)
  /-- `SqlAlchemyOrganizationInvitationWriter.accept` -/
  | acceptInvitation (invitationId organizationId : UUID)
      (membership : OrganizationMembershipRecord)
      (scopes : List MembershipResourceScopeRecord) (acceptedAt : Instant)
      (auditEvent : AuditEvent)
  /-- `SqlAlchemyOrganizationInvitationWriter.revoke` -/
  | revokeInvitation (invitationId organizationId : UUID) (revokedAt : Instant)
      (auditEvent : AuditEvent)
  /-- `SqlAlchemyPlatformConnectionWriter.create` -/
  | createConnection (connection : PlatformConnectionRecord) (auditEvent : AuditEvent)
  /-- `SqlAlchemyPlatformConnectionWriter.update_status` -/
  | updateStatus (connectionId organizationId : UUID) (status : ConnectionStatus)
      (statusReason : Option ConnectionStatusReason)
      (idempotency : Option PlatformConnectionLifecycleIdempotencyRecord)
      (auditEvent : AuditEvent)
  /-- `SqlAlchemyAuditEventWriter.record` -/
  | recordAuditEvent (event : AuditEvent)
  deriving DecidableEq

/-- An invitation that the conditional updates of `accept` and `revoke` select. -/
def OrganizationInvitationRecord.openAt (row : OrganizationInvitationRecord)
    (invitationId organizationId : UUID) (now : Instant) : Bool :=
  row.id == invitationId && row.organizationId == organizationId &&
    row.acceptedAt.isNone && row.revokedAt.isNone && decide (row.expiresAt > now)

/-- The condition of `update_status`: identifier and tenant, nothing else. -/
def PlatformConnectionRecord.keyed (connectionId organizationId : UUID)
    (row : PlatformConnectionRecord) : Bool :=
  row.id == connectionId && row.organizationId == organizationId

namespace Write

/-- The statements of a transaction; `none` when a guarded one selects no row. -/
def statements (tables : Tables) : Write → Option Tables
  | register user identity email credential auditEvent =>
      some { tables with
        users := tables.users ++ [user]
        loginIdentities := tables.loginIdentities ++ [identity]
        userEmails := tables.userEmails ++ [email]
        passwordCredentials := tables.passwordCredentials ++ [credential]
        auditEvents := tables.auditEvents ++ [auditEvent] }
  | createOrganization organization ownerMembership auditEvent =>
      some { tables with
        organizations := tables.organizations ++ [organization]
        organizationMemberships := tables.organizationMemberships ++ [ownerMembership]
        auditEvents := tables.auditEvents ++ [auditEvent] }
  | addMember membership scopes auditEvent =>
      some { tables with
        organizationMemberships := tables.organizationMemberships ++ [membership]
        membershipResourceScopes := tables.membershipResourceScopes ++ scopes
        auditEvents := tables.auditEvents ++ [auditEvent] }
  | updateMember membershipId role scopes auditEvent =>
      if rowcount (fun row => row.id == membershipId) tables.organizationMemberships ≠ 1 then
        none
      else
        some { tables with
          organizationMemberships :=
            update (fun row => row.id == membershipId) (fun row => { row with role := role })
              tables.organizationMemberships
          membershipResourceScopes :=
            tables.membershipResourceScopes.filter (·.membershipId != membershipId) ++ scopes
          auditEvents := tables.auditEvents ++ [auditEvent] }
  | removeMember membershipId auditEvent =>
      if rowcount (fun row => row.id == membershipId) tables.organizationMemberships ≠ 1 then
        none
      else
        -- the scope rows go with the membership: `ondelete="CASCADE"`
        some { tables with
          organizationMemberships :=
            tables.organizationMemberships.filter (·.id != membershipId)
          membershipResourceScopes :=
            tables.membershipResourceScopes.filter (·.membershipId != membershipId)
          auditEvents := tables.auditEvents ++ [auditEvent] }
  | createInvitation invitation scopes auditEvent =>
      some { tables with
        organizationInvitations := tables.organizationInvitations ++ [invitation]
        organizationInvitationScopes := tables.organizationInvitationScopes ++ scopes
        auditEvents := tables.auditEvents ++ [auditEvent] }
  | updateDeliveryStatus invitationId organizationId deliveryStatus =>
      if rowcount (fun row => row.id == invitationId && row.organizationId == organizationId)
          tables.organizationInvitations ≠ 1 then
        none
      else
        some { tables with
          organizationInvitations :=
            update (fun row => row.id == invitationId && row.organizationId == organizationId)
              (fun row => { row with deliveryStatus := some deliveryStatus })
              tables.organizationInvitations }
  | acceptInvitation invitationId organizationId membership scopes acceptedAt auditEvent =>
      if rowcount (·.openAt invitationId organizationId acceptedAt)
          tables.organizationInvitations ≠ 1 then
        none
      else
        some { tables with
          organizationInvitations :=
            update (·.openAt invitationId organizationId acceptedAt)
              (fun row => { row with acceptedAt := some acceptedAt })
              tables.organizationInvitations
          organizationMemberships := tables.organizationMemberships ++ [membership]
          membershipResourceScopes := tables.membershipResourceScopes ++ scopes
          auditEvents := tables.auditEvents ++ [auditEvent] }
  | revokeInvitation invitationId organizationId revokedAt auditEvent =>
      if rowcount (·.openAt invitationId organizationId revokedAt)
          tables.organizationInvitations ≠ 1 then
        none
      else
        some { tables with
          organizationInvitations :=
            update (·.openAt invitationId organizationId revokedAt)
              (fun row => { row with revokedAt := some revokedAt })
              tables.organizationInvitations
          auditEvents := tables.auditEvents ++ [auditEvent] }
  | createConnection connection auditEvent =>
      some { tables with
        platformConnections := tables.platformConnections ++ [connection]
        auditEvents := tables.auditEvents ++ [auditEvent] }
  | updateStatus connectionId organizationId status statusReason idempotency auditEvent =>
      if rowcount (PlatformConnectionRecord.keyed connectionId organizationId)
          tables.platformConnections ≠ 1 then
        none
      else
        some { tables with
          platformConnections :=
            update (PlatformConnectionRecord.keyed connectionId organizationId)
              (fun row => { row with
                status := status
                statusReason := statusReason.map StrEnum.value })
              tables.platformConnections
          lifecycleIdempotency := tables.lifecycleIdempotency ++ idempotency.toList
          auditEvents := tables.auditEvents ++ [auditEvent] }
  | recordAuditEvent event =>
      some { tables with auditEvents := tables.auditEvents ++ [event] }

/-- Run a transaction: `none` stands for a rollback. -/
def apply (write : Write) (database : Database) : Option Database :=
  (write.statements database.tables).bind Database.commit

theorem apply_eq_some {write : Write} {database after : Database} :
    write.apply database = some after ↔
      write.statements database.tables = some after.tables := by
  simp only [apply, Option.bind_eq_some_iff, Database.commit_eq_some]
  constructor
  · rintro ⟨tables, hstatements, rfl⟩
    exact hstatements
  · intro hstatements
    exact ⟨after.tables, hstatements, rfl⟩

/-- What a transaction makes of a stored invitation. -/
def rewriteInvitation (write : Write) (row : OrganizationInvitationRecord) :
    OrganizationInvitationRecord :=
  match write with
  | updateDeliveryStatus invitationId organizationId deliveryStatus =>
      if row.id == invitationId && row.organizationId == organizationId then
        { row with deliveryStatus := some deliveryStatus }
      else row
  | acceptInvitation invitationId organizationId _ _ acceptedAt _ =>
      if row.openAt invitationId organizationId acceptedAt then
        { row with acceptedAt := some acceptedAt }
      else row
  | revokeInvitation invitationId organizationId revokedAt _ =>
      if row.openAt invitationId organizationId revokedAt then
        { row with revokedAt := some revokedAt }
      else row
  | _ => row

def createdInvitations : Write → List OrganizationInvitationRecord
  | createInvitation invitation _ _ => [invitation]
  | _ => []

@[simp] theorem rewriteInvitation_id (write : Write) (row : OrganizationInvitationRecord) :
    (write.rewriteInvitation row).id = row.id := by
  unfold rewriteInvitation
  split
  · split <;> rfl
  · split <;> rfl
  · split <;> rfl
  · rfl

/-- The invitations after a transaction: those before, rewritten, and the new
ones. -/
theorem organizationInvitations_eq {write : Write} {tables after : Tables}
    (hstatements : write.statements tables = some after) :
    after.organizationInvitations =
      tables.organizationInvitations.map write.rewriteInvitation ++ write.createdInvitations := by
  have hsame : (∀ row, write.rewriteInvitation row = row) →
      tables.organizationInvitations.map write.rewriteInvitation =
        tables.organizationInvitations := fun hrows => List.map_id'' hrows _
  cases write with
  | createInvitation invitation scopes auditEvent =>
      simp only [statements, Option.some.injEq] at hstatements
      subst hstatements
      rw [hsame fun _ => rfl]
      rfl
  | updateDeliveryStatus | acceptInvitation | revokeInvitation =>
      simp only [statements, Option.ite_none_left_eq_some, Option.some.injEq] at hstatements
      obtain ⟨_, rfl⟩ := hstatements
      simp [rewriteInvitation, createdInvitations, Relational.update]
  | updateMember | removeMember | updateStatus =>
      simp only [statements, Option.ite_none_left_eq_some, Option.some.injEq] at hstatements
      obtain ⟨_, rfl⟩ := hstatements
      rw [hsame fun _ => rfl]
      exact (List.append_nil _).symm
  | _ =>
      simp only [statements, Option.some.injEq] at hstatements
      subst hstatements
      rw [hsame fun _ => rfl]
      exact (List.append_nil _).symm

theorem rewriteInvitation_mem {write : Write} {tables after : Tables}
    (hstatements : write.statements tables = some after) {row : OrganizationInvitationRecord}
    (hrow : row ∈ tables.organizationInvitations) :
    write.rewriteInvitation row ∈ after.organizationInvitations := by
  rw [organizationInvitations_eq hstatements]
  exact List.mem_append_left _ (List.mem_map_of_mem hrow)

/-- What a transaction makes of a stored connection. -/
def rewriteConnection (write : Write) (row : PlatformConnectionRecord) :
    PlatformConnectionRecord :=
  match write with
  | updateStatus connectionId organizationId status statusReason _ _ =>
      if row.keyed connectionId organizationId then
        { row with status := status, statusReason := statusReason.map StrEnum.value }
      else row
  | _ => row

def createdConnections : Write → List PlatformConnectionRecord
  | createConnection connection _ => [connection]
  | _ => []

@[simp] theorem rewriteConnection_id (write : Write) (row : PlatformConnectionRecord) :
    (write.rewriteConnection row).id = row.id := by
  unfold rewriteConnection
  split
  · split <;> rfl
  · rfl

theorem map_rewriteConnection {write : Write}
    (hsame : ∀ row, write.rewriteConnection row = row) (rows : List PlatformConnectionRecord) :
    rows.map write.rewriteConnection = rows :=
  List.map_id'' hsame rows

/-- The connections after a transaction: those before, rewritten, and the new
ones. -/
theorem platformConnections_eq {write : Write} {tables after : Tables}
    (hstatements : write.statements tables = some after) :
    after.platformConnections =
      tables.platformConnections.map write.rewriteConnection ++ write.createdConnections := by
  cases write with
  | createConnection connection auditEvent =>
      simp only [statements, Option.some.injEq] at hstatements
      subst hstatements
      rw [map_rewriteConnection fun _ => by rfl]
      rfl
  | updateStatus connectionId organizationId status statusReason idempotency auditEvent =>
      simp only [statements, Option.ite_none_left_eq_some, Option.some.injEq] at hstatements
      obtain ⟨_, rfl⟩ := hstatements
      simp [rewriteConnection, createdConnections, Relational.update]
  | updateMember | removeMember | updateDeliveryStatus | acceptInvitation | revokeInvitation =>
      simp only [statements, Option.ite_none_left_eq_some, Option.some.injEq] at hstatements
      obtain ⟨_, rfl⟩ := hstatements
      rw [map_rewriteConnection fun _ => by rfl]
      exact (List.append_nil _).symm
  | _ =>
      simp only [statements, Option.some.injEq] at hstatements
      subst hstatements
      rw [map_rewriteConnection fun _ => by rfl]
      exact (List.append_nil _).symm

section Connections

variable {write : Write} {database after : Database}

theorem rewriteConnection_mem (happly : write.apply database = some after)
    {row : PlatformConnectionRecord} (hrow : row ∈ database.tables.platformConnections) :
    write.rewriteConnection row ∈ after.tables.platformConnections := by
  rw [platformConnections_eq (apply_eq_some.mp happly)]
  exact List.mem_append_left _ (List.mem_map_of_mem hrow)

/-- A stored connection with the identifier of an earlier row is that row as
the transaction rewrote it. -/
theorem eq_rewriteConnection (happly : write.apply database = some after)
    {row changed : PlatformConnectionRecord}
    (hrow : row ∈ database.tables.platformConnections)
    (hchanged : changed ∈ after.tables.platformConnections) (hid : changed.id = row.id) :
    changed = write.rewriteConnection row := by
  have hid' : changed.id = (write.rewriteConnection row).id := by
    rw [hid, rewriteConnection_id]
  exact after.constraints.connectionId.eq hchanged (rewriteConnection_mem happly hrow) hid'

end Connections

end Write

/-- A transaction block as an adapter runs it: what the rows are when the block
is left, and the value that it returns. -/
abbrev Transaction := Tables → Tables × Bool

namespace Transaction

/-- An early `return` inside the block raises nothing, so it commits what was
done until then; an `IntegrityError` rolls everything back and reads `False`. -/
def run (transaction : Transaction) (database : Database) : Database × Bool :=
  match Database.commit (transaction database.tables).1 with
  | some after => (after, (transaction database.tables).2)
  | none => (database, false)

/-- `SqlAlchemyOrganizationInvitationWriter.accept` -/
def acceptInvitation (invitationId organizationId : UUID)
    (membership : OrganizationMembershipRecord) (scopes : List MembershipResourceScopeRecord)
    (acceptedAt : Instant) (auditEvent : AuditEvent) : Transaction := fun tables =>
  let accepted := { tables with
    organizationInvitations :=
      update (·.openAt invitationId organizationId acceptedAt)
        (fun row => { row with acceptedAt := some acceptedAt }) tables.organizationInvitations }
  if rowcount (·.openAt invitationId organizationId acceptedAt)
      tables.organizationInvitations ≠ 1 then
    (accepted, false)
  else
    ({ accepted with
      organizationMemberships := tables.organizationMemberships ++ [membership]
      membershipResourceScopes := tables.membershipResourceScopes ++ scopes
      auditEvents := tables.auditEvents ++ [auditEvent] }, true)

/-- `SqlAlchemyOrganizationInvitationWriter.revoke` -/
def revokeInvitation (invitationId organizationId : UUID) (revokedAt : Instant)
    (auditEvent : AuditEvent) : Transaction := fun tables =>
  let revoked := { tables with
    organizationInvitations :=
      update (·.openAt invitationId organizationId revokedAt)
        (fun row => { row with revokedAt := some revokedAt }) tables.organizationInvitations }
  if rowcount (·.openAt invitationId organizationId revokedAt)
      tables.organizationInvitations ≠ 1 then
    (revoked, false)
  else
    ({ revoked with auditEvents := tables.auditEvents ++ [auditEvent] }, true)

end Transaction

section Invitations

variable {database : Database} {invitationId organizationId : UUID} {now : Instant}

theorem OrganizationInvitationRecord.openAt_iff {row : OrganizationInvitationRecord} :
    row.openAt invitationId organizationId now = true ↔
      row.id = invitationId ∧ row.organizationId = organizationId ∧ row.acceptedAt = none ∧
        row.revokedAt = none ∧ now < row.expiresAt := by
  simp [OrganizationInvitationRecord.openAt, and_assoc]

/-- Where the conditional update does not find its one row, it finds none. -/
theorem rowcount_openAt_eq_zero
    (hcount : rowcount (·.openAt invitationId organizationId now)
      database.tables.organizationInvitations ≠ 1) :
    rowcount (·.openAt invitationId organizationId now)
      database.tables.organizationInvitations = 0 := by
  have hmost : rowcount (·.openAt invitationId organizationId now)
      database.tables.organizationInvitations ≤ 1 :=
    rowcount_le_one database.constraints.invitationId
      fun row hopen => (OrganizationInvitationRecord.openAt_iff.mp hopen).1
  omega

/-- A block does what a write says if it changes nothing where it returns
`False` early. -/
theorem Transaction.run_eq {transaction : Transaction} {write : Write}
    (hdone : (transaction database.tables).2 = true →
      write.statements database.tables = some (transaction database.tables).1)
    (hearly : (transaction database.tables).2 = false →
      write.statements database.tables = none ∧
        (transaction database.tables).1 = database.tables) :
    transaction.run database =
      match write.apply database with
      | some after => (after, true)
      | none => (database, false) := by
  rw [Transaction.run, Write.apply]
  cases hreturned : (transaction database.tables).2 with
  | true =>
      rw [hdone hreturned, Option.bind_some]
  | false =>
      obtain ⟨hnone, hsame⟩ := hearly hreturned
      rw [hnone, hsame, Database.commit_eq_some.mpr rfl]
      rfl

/-- The block of `accept` does what the write says. -/
theorem Transaction.run_acceptInvitation (database : Database)
    (membership : OrganizationMembershipRecord) (scopes : List MembershipResourceScopeRecord)
    (auditEvent : AuditEvent) :
    (Transaction.acceptInvitation invitationId organizationId membership scopes now
        auditEvent).run database =
      match (Write.acceptInvitation invitationId organizationId membership scopes now
          auditEvent).apply database with
      | some after => (after, true)
      | none => (database, false) := by
  apply Transaction.run_eq
  all_goals
    simp only [Transaction.acceptInvitation, Write.statements]
    split
    · rename_i hcount
      simp [update_eq_self (rowcount_openAt_eq_zero hcount)]
    · simp

/-- The block of `revoke` does what the write says. -/
theorem Transaction.run_revokeInvitation (database : Database) (auditEvent : AuditEvent) :
    (Transaction.revokeInvitation invitationId organizationId now auditEvent).run database =
      match (Write.revokeInvitation invitationId organizationId now auditEvent).apply
          database with
      | some after => (after, true)
      | none => (database, false) := by
  apply Transaction.run_eq
  all_goals
    simp only [Transaction.revokeInvitation, Write.statements]
    split
    · rename_i hcount
      simp [update_eq_self (rowcount_openAt_eq_zero hcount)]
    · simp

end Invitations

end MuxivoConsole
