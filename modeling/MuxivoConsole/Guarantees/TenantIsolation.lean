/-
One organization's requests and the rows of the others.  Some statements select by a
bare row identifier; what keeps them at home is where the identifier was read, and that
no row ever changes its organization.
-/
import MuxivoConsole.Guarantees.Evolution

namespace MuxivoConsole

open Interleaving Relational

/-- The rows of an organization, in every table that has such rows. -/
structure TenantRows where
  memberships : List OrganizationMembershipRecord
  membershipScopes : List MembershipResourceScopeRecord
  invitations : List OrganizationInvitationRecord
  invitationScopes : List OrganizationInvitationScopeRecord
  connections : List PlatformConnectionRecord
  lifecycleIdempotency : List PlatformConnectionLifecycleIdempotencyRecord
  auditEvents : List AuditEvent

namespace Tables

def membershipsOf (tables : Tables) (organizationId : UUID) :
    List OrganizationMembershipRecord :=
  tables.organizationMemberships.filter (·.organizationId == organizationId)

def invitationsOf (tables : Tables) (organizationId : UUID) :
    List OrganizationInvitationRecord :=
  tables.organizationInvitations.filter (·.organizationId == organizationId)

def tenant (tables : Tables) (organizationId : UUID) : TenantRows where
  memberships := tables.membershipsOf organizationId
  membershipScopes :=
    semijoin MembershipResourceScopeRecord.membershipId tables.membershipResourceScopes
      OrganizationMembershipRecord.id (tables.membershipsOf organizationId)
  invitations := tables.invitationsOf organizationId
  invitationScopes :=
    semijoin OrganizationInvitationScopeRecord.invitationId tables.organizationInvitationScopes
      OrganizationInvitationRecord.id (tables.invitationsOf organizationId)
  connections := tables.platformConnections.filter (·.organizationId == organizationId)
  lifecycleIdempotency :=
    tables.lifecycleIdempotency.filter (·.organizationId == organizationId)
  auditEvents := tables.auditEvents.filter (·.organizationId == some organizationId)

end Tables

/-- The organization that a request names. -/
def Request.tenant : Request → Option UUID
  | addOrganizationMember command => some command.organizationId
  | updateOrganizationMember command => some command.organizationId
  | removeOrganizationMember command => some command.organizationId
  | inviteOrganizationMember command => some command.organizationId
  | revokeOrganizationInvitation command => some command.organizationId
  | connectPlatformConnection command => some command.organizationId
  | managePlatformConnectionLifecycle command => some command.organizationId
  | _ => none

/-- The request is one on the organization: it names it, or it accepts by a token that is
of no invitation of another one. -/
def ActsFor (ports : Ports) (database : Database) (request : Request) (organizationId : UUID) :
    Prop :=
  match request with
  | .acceptOrganizationInvitation command =>
      ∀ invitation ∈ database.tables.organizationInvitations,
        invitation.tokenHash = ports.hashToken command.rawToken →
          invitation.organizationId = organizationId
  | request => request.tenant = some organizationId

namespace Write

/-- The audit facts that a transaction appends. -/
def auditEvents : Write → List AuditEvent
  | register _ _ _ _ auditEvent | createOrganization _ _ auditEvent | addMember _ _ auditEvent
  | updateMember _ _ _ auditEvent | removeMember _ auditEvent
  | createInvitation _ _ auditEvent | acceptInvitation _ _ _ _ _ auditEvent
  | revokeInvitation _ _ _ auditEvent | createConnection _ auditEvent
  | updateStatus _ _ _ _ _ auditEvent | recordAuditEvent auditEvent => [auditEvent]
  | updateDeliveryStatus .. => []

/-- The organization in the condition of an update of invitations. -/
def invitationTenant : Write → Option UUID
  | updateDeliveryStatus _ organizationId _ | acceptInvitation _ organizationId _ _ _ _
  | revokeInvitation _ organizationId _ _ => some organizationId
  | _ => none

/-- The transaction is tagged with the organization, in its audit fact and in its
condition on invitations. -/
def Tagged (write : Write) (organizationId : UUID) : Prop :=
  (∀ auditEvent ∈ write.auditEvents, auditEvent.organizationId = some organizationId) ∧
    ∀ tenantId ∈ write.invitationTenant, tenantId = organizationId

/-- Every row that the transaction changes, adds or deletes is one of the organization. -/
def Within (write : Write) (database : Database) (organizationId : UUID) : Prop :=
  write.Tagged organizationId ∧
    match write with
    | addMember membership scopes _ =>
        membership.organizationId = organizationId ∧
          ∀ scope ∈ scopes, scope.membershipId = membership.id
    | updateMember membershipId _ scopes _ =>
        (∀ row ∈ database.tables.organizationMemberships, row.id = membershipId →
          row.organizationId = organizationId) ∧
          ∀ scope ∈ scopes, scope.membershipId = membershipId
    | removeMember membershipId _ =>
        ∀ row ∈ database.tables.organizationMemberships, row.id = membershipId →
          row.organizationId = organizationId
    | createInvitation invitation scopes _ =>
        invitation.organizationId = organizationId ∧
          ∀ scope ∈ scopes, scope.invitationId = invitation.id
    | acceptInvitation _ _ membership scopes _ _ =>
        membership.organizationId = organizationId ∧
          ∀ scope ∈ scopes, scope.membershipId = membership.id
    | createConnection connection _ => connection.organizationId = organizationId
    | updateStatus _ tenantId _ _ idempotency _ =>
        tenantId = organizationId ∧
          ∀ record ∈ idempotency, record.organizationId = organizationId
    | updateDeliveryStatus .. | revokeInvitation .. => True
    | _ => False

end Write

section Frames

variable {write : Write} {database after : Database} {organizationId other : UUID}

theorem Write.auditEvents_eq {tables after : Tables}
    (hstatements : write.statements tables = some after) :
    after.auditEvents = tables.auditEvents ++ write.auditEvents := by
  cases write with
  | updateMember | removeMember | acceptInvitation | revokeInvitation | updateStatus =>
      simp only [statements, Option.ite_none_left_eq_some, Option.some.injEq] at hstatements
      rw [← hstatements.2]
      rfl
  | updateDeliveryStatus =>
      simp only [statements, Option.ite_none_left_eq_some, Option.some.injEq] at hstatements
      rw [← hstatements.2]
      exact (List.append_nil _).symm
  | _ =>
      simp only [statements, Option.some.injEq] at hstatements
      rw [← hstatements]
      rfl

/-- Audit facts of one organization do not show in another. -/
theorem Write.Tagged.auditEvents {tables after : Tables} (htagged : write.Tagged organizationId)
    (hstatements : write.statements tables = some after) (hne : other ≠ organizationId) :
    after.auditEvents.filter (·.organizationId == some other) =
      tables.auditEvents.filter (·.organizationId == some other) := by
  have hnone : write.auditEvents.filter (·.organizationId == some other) = [] := by
    rw [List.filter_eq_nil_iff]
    intro auditEvent hevent
    rw [htagged.1 auditEvent hevent]
    simpa using hne.symm
  rw [Write.auditEvents_eq hstatements, List.filter_append, hnone, List.append_nil]

/-- The identifier of a row of one organization is that of no row of another. -/
theorem not_mem_keys {ρ : Type} {key tenant : ρ → UUID} {rows : List ρ} {id : UUID}
    (htenant : ∀ row ∈ rows, key row = id → tenant row = organizationId)
    (hne : other ≠ organizationId) : id ∉ (rows.filter (tenant · == other)).map key := by
  intro hmem
  obtain ⟨row, hrow, hid⟩ := List.mem_map.mp hmem
  obtain ⟨hstored, hother⟩ := List.mem_filter.mp hrow
  rw [beq_iff_eq] at hother
  exact hne (hother.symm.trans (htenant row hstored hid))

/-- Nor is a new identifier. -/
theorem not_mem_keys_of_fresh {ρ : Type} {key tenant : ρ → UUID} {rows : List ρ} {added : ρ}
    (hunique : UniqueOn key (rows ++ [added])) :
    key added ∉ (rows.filter (tenant · == other)).map key := by
  intro hmem
  obtain ⟨row, hrow, hid⟩ := List.mem_map.mp hmem
  exact hunique.fresh (List.mem_of_mem_filter hrow) hid

theorem other_tenant {tenantId : UUID} (htenant : tenantId = organizationId)
    (hne : other ≠ organizationId) : (tenantId == other) = false := by
  simpa [htenant] using hne.symm

/-- The memberships of other organizations stay. -/
theorem Write.Within.memberships (hwithin : write.Within database organizationId)
    (hstatements : write.statements database.tables = some after.tables)
    (hne : other ≠ organizationId) :
    after.tables.membershipsOf other = database.tables.membershipsOf other := by
  obtain ⟨_, hrows⟩ := hwithin
  cases write with
  | addMember membership scopes auditEvent =>
      simp only [statements, Option.some.injEq] at hstatements
      rw [← hstatements]
      exact filter_snoc (other_tenant hrows.1 hne)
  | acceptInvitation invitationId tenantId membership scopes acceptedAt auditEvent =>
      simp only [statements, Option.ite_none_left_eq_some, Option.some.injEq] at hstatements
      rw [← hstatements.2]
      exact filter_snoc (other_tenant hrows.1 hne)
  | updateMember membershipId role scopes auditEvent =>
      simp only [statements, Option.ite_none_left_eq_some, Option.some.injEq] at hstatements
      rw [← hstatements.2]
      apply filter_update
      intro row hrow hid
      have hfalse := other_tenant (hrows.1 row hrow (by simpa using hid)) hne
      exact ⟨hfalse, hfalse⟩
  | removeMember membershipId auditEvent =>
      simp only [statements, Option.ite_none_left_eq_some, Option.some.injEq] at hstatements
      rw [← hstatements.2]
      simp only [Tables.membershipsOf, List.filter_filter]
      apply List.filter_congr
      intro row hrow
      by_cases hid : row.id = membershipId
      · simp [other_tenant (hrows row hrow hid) hne]
      · simp [hid]
  | createInvitation | createConnection =>
      simp only [statements, Option.some.injEq] at hstatements
      rw [← hstatements]
      rfl
  | updateDeliveryStatus | revokeInvitation | updateStatus =>
      simp only [statements, Option.ite_none_left_eq_some, Option.some.injEq] at hstatements
      rw [← hstatements.2]
      rfl
  | register | createOrganization | recordAuditEvent => exact hrows.elim

/-- So do the scopes of these memberships. -/
theorem Write.Within.membershipScopes (hwithin : write.Within database organizationId)
    (hstatements : write.statements database.tables = some after.tables)
    (hne : other ≠ organizationId) :
    semijoin MembershipResourceScopeRecord.membershipId after.tables.membershipResourceScopes
        OrganizationMembershipRecord.id (database.tables.membershipsOf other) =
      semijoin MembershipResourceScopeRecord.membershipId
        database.tables.membershipResourceScopes OrganizationMembershipRecord.id
          (database.tables.membershipsOf other) := by
  obtain ⟨_, hrows⟩ := hwithin
  have hunique := after.constraints.membershipId
  cases write with
  | addMember membership scopes auditEvent =>
      simp only [statements, Option.some.injEq] at hstatements
      rw [← hstatements] at hunique ⊢
      apply semijoin_append
      intro scope hscope
      rw [hrows.2 scope hscope]
      exact not_mem_keys_of_fresh hunique
  | acceptInvitation invitationId tenantId membership scopes acceptedAt auditEvent =>
      simp only [statements, Option.ite_none_left_eq_some, Option.some.injEq] at hstatements
      rw [← hstatements.2] at hunique ⊢
      apply semijoin_append
      intro scope hscope
      rw [hrows.2 scope hscope]
      exact not_mem_keys_of_fresh hunique
  | updateMember membershipId role scopes auditEvent =>
      simp only [statements, Option.ite_none_left_eq_some, Option.some.injEq] at hstatements
      rw [← hstatements.2]
      have hnone := not_mem_keys hrows.1 hne
      rw [semijoin_append fun scope hscope => (hrows.2 scope hscope).symm ▸ hnone]
      exact semijoin_delete hnone
  | removeMember membershipId auditEvent =>
      simp only [statements, Option.ite_none_left_eq_some, Option.some.injEq] at hstatements
      rw [← hstatements.2]
      exact semijoin_delete (not_mem_keys hrows hne)
  | createInvitation | createConnection =>
      simp only [statements, Option.some.injEq] at hstatements
      rw [← hstatements]
  | updateDeliveryStatus | revokeInvitation | updateStatus =>
      simp only [statements, Option.ite_none_left_eq_some, Option.some.injEq] at hstatements
      rw [← hstatements.2]
  | register | createOrganization | recordAuditEvent => exact hrows.elim

/-- Invitations are selected along with their organization. -/
theorem Write.Within.invitations (hwithin : write.Within database organizationId)
    (hstatements : write.statements database.tables = some after.tables)
    (hne : other ≠ organizationId) :
    after.tables.invitationsOf other = database.tables.invitationsOf other := by
  obtain ⟨htagged, hrows⟩ := hwithin
  cases write with
  | createInvitation invitation scopes auditEvent =>
      simp only [statements, Option.some.injEq] at hstatements
      rw [← hstatements]
      exact filter_snoc (other_tenant hrows.1 hne)
  | updateDeliveryStatus | acceptInvitation | revokeInvitation =>
      simp only [statements, Option.ite_none_left_eq_some, Option.some.injEq] at hstatements
      rw [← hstatements.2]
      apply filter_update
      intro row _ hselected
      have hfalse : (row.organizationId == other) = false := by
        apply other_tenant ?_ hne
        rw [← htagged.2 _ rfl]
        simp only [OrganizationInvitationRecord.openAt, Bool.and_eq_true,
          beq_iff_eq] at hselected
        simp [hselected]
      exact ⟨hfalse, hfalse⟩
  | addMember | createConnection =>
      simp only [statements, Option.some.injEq] at hstatements
      rw [← hstatements]
      rfl
  | updateMember | removeMember | updateStatus =>
      simp only [statements, Option.ite_none_left_eq_some, Option.some.injEq] at hstatements
      rw [← hstatements.2]
      rfl
  | register | createOrganization | recordAuditEvent => exact hrows.elim

theorem Write.Within.invitationScopes (hwithin : write.Within database organizationId)
    (hstatements : write.statements database.tables = some after.tables) :
    semijoin OrganizationInvitationScopeRecord.invitationId
        after.tables.organizationInvitationScopes OrganizationInvitationRecord.id
          (database.tables.invitationsOf other) =
      semijoin OrganizationInvitationScopeRecord.invitationId
        database.tables.organizationInvitationScopes OrganizationInvitationRecord.id
          (database.tables.invitationsOf other) := by
  obtain ⟨_, hrows⟩ := hwithin
  have hunique := after.constraints.invitationId
  cases write with
  | createInvitation invitation scopes auditEvent =>
      simp only [statements, Option.some.injEq] at hstatements
      rw [← hstatements] at hunique ⊢
      apply semijoin_append
      intro scope hscope
      rw [hrows.2 scope hscope]
      exact not_mem_keys_of_fresh hunique
  | addMember | createConnection =>
      simp only [statements, Option.some.injEq] at hstatements
      rw [← hstatements]
  | updateDeliveryStatus | acceptInvitation | revokeInvitation | updateMember | removeMember
  | updateStatus =>
      simp only [statements, Option.ite_none_left_eq_some, Option.some.injEq] at hstatements
      rw [← hstatements.2]
  | register | createOrganization | recordAuditEvent => exact hrows.elim

/-- Connections, and the retry results that are stored with their changes. -/
theorem Write.Within.connections (hwithin : write.Within database organizationId)
    (hstatements : write.statements database.tables = some after.tables)
    (hne : other ≠ organizationId) :
    after.tables.platformConnections.filter (·.organizationId == other) =
        database.tables.platformConnections.filter (·.organizationId == other) ∧
      after.tables.lifecycleIdempotency.filter (·.organizationId == other) =
        database.tables.lifecycleIdempotency.filter (·.organizationId == other) := by
  obtain ⟨_, hrows⟩ := hwithin
  cases write with
  | createConnection connection auditEvent =>
      simp only [statements, Option.some.injEq] at hstatements
      rw [← hstatements]
      exact ⟨filter_snoc (other_tenant hrows hne), rfl⟩
  | updateStatus connectionId tenantId status statusReason idempotency auditEvent =>
      simp only [statements, Option.ite_none_left_eq_some, Option.some.injEq] at hstatements
      rw [← hstatements.2]
      constructor
      · apply filter_update
        intro row _ hkeyed
        simp only [PlatformConnectionRecord.keyed, Bool.and_eq_true, beq_iff_eq] at hkeyed
        have hfalse := other_tenant (hkeyed.2.trans hrows.1) hne
        exact ⟨hfalse, hfalse⟩
      · cases idempotency with
        | none => exact congrArg _ (List.append_nil _)
        | some record => exact filter_snoc (other_tenant (hrows.2 record rfl) hne)
  | addMember | createInvitation =>
      simp only [statements, Option.some.injEq] at hstatements
      rw [← hstatements]
      exact ⟨rfl, rfl⟩
  | updateDeliveryStatus | acceptInvitation | revokeInvitation | updateMember | removeMember =>
      simp only [statements, Option.ite_none_left_eq_some, Option.some.injEq] at hstatements
      rw [← hstatements.2]
      exact ⟨rfl, rfl⟩
  | register | createOrganization | recordAuditEvent => exact hrows.elim

/-- Frame rule: a transaction within one organization leaves the rows of the others. -/
theorem Write.Within.tenant_eq (hwithin : write.Within database organizationId)
    (happly : write.apply database = some after) (hne : other ≠ organizationId) :
    after.tables.tenant other = database.tables.tenant other := by
  have hstatements := Write.apply_eq_some.mp happly
  obtain ⟨hconnections, hidempotency⟩ := hwithin.connections hstatements hne
  simp only [Tables.tenant]
  rw [hwithin.memberships hstatements hne, hwithin.membershipScopes hstatements hne,
    hwithin.invitations hstatements hne, hwithin.invitationScopes hstatements,
    hwithin.1.auditEvents hstatements hne, hconnections, hidempotency]

end Frames

/-- What a request on an organization may write: transactions with the tag of the
organization; an acceptance reads the organization in the invitation of its token. -/
def Tags (ports : Ports) (request : Request) (history : ConsoleHistory) :
    Action console → Prop
  | .call _ => True
  | .commit write =>
      match request with
      | .acceptOrganizationInvitation command =>
          ∃ row, SawInvitation history row ∧
            row.tokenHash = ports.hashToken command.rawToken ∧ write.Tagged row.organizationId
      | request => ∀ organizationId ∈ request.tenant, write.Tagged organizationId

section UseCases

variable {ports : Ports} {history : ConsoleHistory}

/-- The tag of a transaction with one audit fact. -/
theorem tagged_of_event {write : Write} {auditEvent : AuditEvent} {organizationId : UUID}
    (hevents : write.auditEvents = [auditEvent])
    (hevent : auditEvent.organizationId = some organizationId)
    (hcondition : ∀ tenantId ∈ write.invitationTenant, tenantId = organizationId) :
    write.Tagged organizationId := by
  refine ⟨?_, hcondition⟩
  intro other hother
  rw [hevents, List.mem_singleton] at hother
  rw [hother, hevent]

theorem createMemberAuditEvent_tags {guard : ConsoleHistory → Action console → Prop}
    (correlationId actorId organizationId : UUID) (action : String) (targetUserId : UUID)
    (named : action ≠ "" ∧ "organization_member" ≠ "") :
    (UseCase.createMemberAuditEvent correlationId actorId organizationId action targetUserId
      named).Ensures guard
      (fun _ auditEvent => auditEvent.organizationId = some organizationId) history := by
  unfold UseCase.createMemberAuditEvent
  refine newIdentifier_ensures.bind ?_
  rintro after id -
  exact Execution.ensures_pure rfl

theorem addOrganizationMember_tags (command : AddOrganizationMemberCommand) :
    (UseCase.addOrganizationMember ports command).Ensures
      (Tags ports (.addOrganizationMember command)) (fun _ _ => True) history := by
  unfold UseCase.addOrganizationMember
  refine (normalizeEmail_ensures ports _).bind ?_
  rintro after₁ normalized -
  refine (requireActorCanManage_ensures _ _ _).bind ?_
  rintro after₂ actor -
  refine (rejectScopes_ensures _ _).bind ?_
  rintro after₃ _ -
  refine Execution.ensures_select.bind ?_
  rintro after₄ targetUserId -
  split
  · exact Execution.ensures_raise
  · refine Execution.ensures_select.bind ?_
    rintro after₅ status -
    split
    · exact Execution.ensures_raise
    · refine newIdentifier_ensures.bind ?_
      rintro after₆ id -
      refine (assignScopeIds_ensures _).bind ?_
      rintro after₇ resourceScopes -
      refine (createMemberAuditEvent_tags _ _ _ _ _ _).bind ?_
      intro after₈ auditEvent hevent
      refine (addMember_ensures rfl ?_).bind ?_
      · intro scopes message _ organizationId horganization
        cases horganization
        exact tagged_of_event rfl hevent (by simp [Write.invitationTenant])
      · rintro after₉ created -
        split
        · exact Execution.ensures_raise
        · exact Execution.ensures_pure trivial

theorem updateOrganizationMember_tags (command : UpdateOrganizationMemberCommand) :
    (UseCase.updateOrganizationMember command).Ensures
      (Tags ports (.updateOrganizationMember command)) (fun _ _ => True) history := by
  unfold UseCase.updateOrganizationMember
  refine (requireActorCanManage_ensures _ _ _).bind ?_
  rintro after₁ actor -
  refine (rejectScopes_ensures _ _).bind ?_
  rintro after₂ _ -
  refine (getMembership_ensures _ _).bind ?_
  rintro after₃ target -
  split
  · exact Execution.ensures_raise
  · rename_i target
    split
    · exact Execution.ensures_raise
    · rename_i hdeny
      simp only [Bool.or_eq_true, not_or, Option.isNone_iff_eq_none] at hdeny
      obtain ⟨id, hid⟩ := Option.ne_none_iff_exists'.mp hdeny.1.1
      refine (assignScopeIds_ensures _).bind ?_
      rintro after₄ resourceScopes -
      refine (createMemberAuditEvent_tags _ _ _ _ _ _).bind ?_
      intro after₅ auditEvent hevent
      refine (updateMember_ensures (by exact hid) ?_).bind ?_
      · intro scopes message _ organizationId horganization
        cases horganization
        exact tagged_of_event rfl hevent (by simp [Write.invitationTenant])
      · rintro after₆ saved -
        split
        · exact Execution.ensures_raise
        · exact Execution.ensures_pure trivial

theorem removeOrganizationMember_tags (command : RemoveOrganizationMemberCommand) :
    (UseCase.removeOrganizationMember command).Ensures
      (Tags ports (.removeOrganizationMember command)) (fun _ _ => True) history := by
  unfold UseCase.removeOrganizationMember
  refine (getMembership_ensures _ _).bind ?_
  rintro after₁ actor -
  refine (getMembership_ensures _ _).bind ?_
  rintro after₂ target -
  split
  · split
    · exact Execution.ensures_raise
    · refine (createMemberAuditEvent_tags _ _ _ _ _ _).bind ?_
      intro after₃ auditEvent hevent
      refine (Execution.ensures_save ?_).bind ?_
      · intro organizationId horganization
        cases horganization
        exact tagged_of_event rfl hevent (by simp [Write.invitationTenant])
      · rintro after₄ removed -
        split
        · exact Execution.ensures_raise
        · exact Execution.ensures_pure trivial
  · exact Execution.ensures_raise

/-- An invitation value has the organization of its row. -/
theorem readInvitationScopes_row {guard : ConsoleHistory → Action console → Prop}
    (row : Option OrganizationInvitationRecord) :
    (UseCase.readInvitationScopes row).Ensures guard
      (fun after invitation => Quiet history after ∧ ∀ found, invitation = some found →
        ∃ stored, row = some stored ∧
          found.fields.organizationId = stored.organizationId) history := by
  unfold UseCase.readInvitationScopes
  split
  · refine Execution.ensures_pure ⟨Quiet.refl _, ?_⟩
    intro found hfound
    cases hfound
  · rename_i stored
    refine Execution.ensures_select.bind ?_
    rintro after scopes ⟨moment, world, rfl, -⟩
    refine Execution.ensures_pure ⟨Quiet.saw _ _ _, ?_⟩
    intro found hfound
    exact ⟨stored, rfl, (invitationFromRecords_eq_some hfound).2.1⟩

theorem findInvitationForOrganization_tenant {guard : ConsoleHistory → Action console → Prop}
    (organizationId invitationId : UUID) :
    (UseCase.findInvitationForOrganization organizationId invitationId).Ensures guard
      (fun _ invitation => ∀ found, invitation = some found →
        found.fields.organizationId = organizationId) history := by
  unfold UseCase.findInvitationForOrganization
  refine Execution.ensures_select.bind ?_
  rintro after row ⟨moment, world, -, hrow⟩
  refine (readInvitationScopes_row row).mono ?_
  intro last invitation hlast found hfound
  obtain ⟨stored, hstored, hsame⟩ := hlast.2 found hfound
  rw [hstored] at hrow
  have hselected := List.find?_some hrow.symm
  simp only [Bool.and_eq_true, beq_iff_eq] at hselected
  exact hsame.trans hselected.1

theorem findPendingByTokenHash_tenant {guard : ConsoleHistory → Action console → Prop}
    (tokenHash : String) (now : Instant) :
    (UseCase.findPendingByTokenHash tokenHash now).Ensures guard
      (fun after invitation => ∀ found, invitation = some found →
        ∃ row, SawInvitation after row ∧ row.tokenHash = tokenHash ∧
          found.fields.organizationId = row.organizationId) history := by
  unfold UseCase.findPendingByTokenHash
  refine Execution.ensures_select.bind ?_
  rintro after row ⟨moment, world, rfl, hrow⟩
  refine (readInvitationScopes_row row).mono ?_
  intro last invitation hlast found hfound
  obtain ⟨stored, hstored, hsame⟩ := hlast.2 found hfound
  rw [hstored] at hrow
  have hselected := List.find?_some hrow.symm
  have hsaw : SawInvitation (history ++ [.saw moment world]) stored :=
    ⟨world, mem_recent_saw _ _ _, List.mem_of_find?_eq_some hrow.symm⟩
  refine ⟨stored, hsaw.mono hlast.1, ?_, hsame⟩
  simp only [Bool.and_eq_true, beq_iff_eq] at hselected
  exact hselected.1.1.1

theorem inviteOrganizationMember_tags (command : InviteOrganizationMemberCommand) :
    (UseCase.inviteOrganizationMember ports command).Ensures
      (Tags ports (.inviteOrganizationMember command)) (fun _ _ => True) history := by
  unfold UseCase.inviteOrganizationMember
  refine (normalizeEmail_ensures ports _).bind ?_
  rintro after₁ normalized -
  refine Execution.ensures_select.bind ?_
  rintro after₂ organization -
  refine (getMembership_ensures _ _).bind ?_
  rintro after₃ actor -
  split
  · split
    · exact Execution.ensures_raise
    · split
      · exact Execution.ensures_raise
      · refine (Execution.ensures_ask trivial).bind ?_
        rintro after₄ rawToken -
        refine (Execution.ensures_ask trivial).bind ?_
        rintro after₅ instant -
        refine newIdentifier_ensures.bind ?_
        rintro after₆ id -
        refine (orRaise_ensures _).bind ?_
        rintro after₇ emailHint -
        refine (Execution.ensures_ask trivial).bind ?_
        rintro after₈ ciphertext -
        refine (assignScopeIds_ensures _).bind ?_
        rintro after₉ resourceScopes -
        refine (orValueError_ensures _).bind ?_
        rintro after₁₀ invitation ⟨-, hmake⟩
        have hinvitation := Validated.make_eq_ok.mp hmake
        refine newIdentifier_ensures.bind ?_
        rintro after₁₁ auditId -
        refine (createInvitation_ensures ?_).bind ?_
        · intro stored scopes message _ _ _ _ _ _ _ organizationId horganization
          cases horganization
          exact tagged_of_event rfl rfl (by simp [Write.invitationTenant])
        · rintro after₁₂ created -
          split
          · exact Execution.ensures_raise
          · refine (Execution.ensures_ask trivial).bind ?_
            rintro after₁₃ delivered -
            refine (Execution.ensures_save ?_).bind ?_
            · intro organizationId horganization
              cases horganization
              refine ⟨by simp [Write.auditEvents], ?_⟩
              rintro tenantId ⟨⟩
              rw [hinvitation]
            · rintro after₁₄ persisted -
              exact Execution.ensures_pure trivial
  · exact Execution.ensures_raise

theorem acceptOrganizationInvitation_tags (command : AcceptOrganizationInvitationCommand) :
    (UseCase.acceptOrganizationInvitation ports command).Ensures
      (Tags ports (.acceptOrganizationInvitation command)) (fun _ _ => True) history := by
  unfold UseCase.acceptOrganizationInvitation
  split
  · exact Execution.ensures_raise
  · refine (Execution.ensures_ask trivial).bind ?_
    rintro after₁ instant -
    refine (findPendingByTokenHash_tenant _ _).bind ?_
    intro after₂ invitation hinvitation
    split
    · exact Execution.ensures_raise
    · rename_i invitation
      obtain ⟨row, hrow, htoken, horganization⟩ := hinvitation invitation rfl
      split
      · exact Execution.ensures_raise
      · refine Execution.ensures_select.bind ?_
        rintro after₃ invitedUserId ⟨moment, world, rfl, -⟩
        split
        · exact Execution.ensures_raise
        · refine Execution.ensures_select.bind ?_
          rintro after₄ status ⟨moment', world', rfl, -⟩
          split
          · exact Execution.ensures_raise
          · refine (getMembership_ensures _ _).bind ?_
            rintro after₅ existing ⟨hexisting, -⟩
            split
            · exact Execution.ensures_raise
            · refine newIdentifier_ensures.bind ?_
              rintro after₆ membershipId rfl
              refine (freshScopeIds_ensures _).bind ?_
              rintro after₇ resourceScopes ⟨hfresh, -⟩
              refine newIdentifier_ensures.bind ?_
              rintro after₈ auditId rfl
              have hsince := (Quiet.saw after₂ moment world).trans
                ((Quiet.saw _ moment' world').trans (hexisting.trans
                  ((Quiet.drew _ membershipId).trans
                    (hfresh.trans (@Quiet.drew console _ auditId)))))
              refine (acceptInvitation_ensures rfl ?_).bind ?_
              · intro records message _
                refine ⟨row, hrow.mono hsince, htoken, ?_⟩
                refine tagged_of_event rfl (congrArg some horganization) ?_
                rintro tenantId ⟨⟩
                exact horganization
              · rintro after₉ accepted -
                split
                · exact Execution.ensures_raise
                · exact Execution.ensures_pure trivial

theorem revokeOrganizationInvitation_tags (command : RevokeOrganizationInvitationCommand) :
    (UseCase.revokeOrganizationInvitation command).Ensures
      (Tags ports (.revokeOrganizationInvitation command)) (fun _ _ => True) history := by
  unfold UseCase.revokeOrganizationInvitation
  refine (getMembership_ensures _ _).bind ?_
  rintro after₁ actor -
  refine (findInvitationForOrganization_tenant _ _).bind ?_
  intro after₂ invitation hinvitation
  split
  · rename_i actor invitation
    split
    · exact Execution.ensures_raise
    · refine (Execution.ensures_ask trivial).bind ?_
      rintro after₃ instant -
      split
      · exact Execution.ensures_raise
      · refine (Execution.ensures_ask trivial).bind ?_
        rintro after₄ revokedAt -
        refine newIdentifier_ensures.bind ?_
        rintro after₅ auditId -
        refine (Execution.ensures_save ?_).bind ?_
        · intro organizationId horganization
          cases horganization
          refine tagged_of_event rfl rfl ?_
          rintro tenantId ⟨⟩
          exact hinvitation invitation rfl
        · rintro after₆ revoked -
          split
          · exact Execution.ensures_raise
          · exact Execution.ensures_pure trivial
  · exact Execution.ensures_raise

theorem connectPlatformConnection_tags (command : ConnectPlatformConnectionCommand) :
    (UseCase.connectPlatformConnection command).Ensures
      (Tags ports (.connectPlatformConnection command)) (fun _ _ => True) history := by
  unfold UseCase.connectPlatformConnection
  refine (authorize_ensures _).bind ?_
  rintro after₁ decision -
  split
  · exact Execution.ensures_raise
  · refine (Execution.ensures_ask trivial).bind ?_
    rintro after₂ answer -
    refine (orRaise_ensures _).bind ?_
    rintro after₃ verified -
    split
    · exact Execution.ensures_raise
    · refine newIdentifier_ensures.bind ?_
      rintro after₄ id -
      refine (orValueError_ensures _).bind ?_
      rintro after₅ connection -
      refine newIdentifier_ensures.bind ?_
      rintro after₆ auditId -
      refine (Execution.ensures_save ?_).bind ?_
      · intro organizationId horganization
        cases horganization
        exact tagged_of_event rfl rfl (by simp [Write.invitationTenant])
      · rintro after₇ created -
        split
        · exact Execution.ensures_raise
        · exact Execution.ensures_pure trivial

theorem applyLifecycleAction_tags (command : ManagePlatformConnectionLifecycleCommand)
    (key : Option String) :
    (UseCase.applyLifecycleAction command key).Ensures
      (Tags ports (.managePlatformConnectionLifecycle command)) (fun _ _ => True) history := by
  unfold UseCase.applyLifecycleAction
  refine Execution.ensures_select.bind ?_
  rintro after₁ current -
  split
  · exact Execution.ensures_raise
  · refine Execution.Ensures.ite (fun _ => Execution.ensures_pure trivial) ?_
    intro _
    split
    · exact Execution.ensures_raise
    · refine newIdentifier_ensures.bind ?_
      rintro after₂ auditId -
      refine (Execution.ensures_save ?_).bind ?_
      · intro organizationId horganization
        cases horganization
        exact tagged_of_event rfl rfl (by simp [Write.invitationTenant])
      · rintro after₃ saved -
        split
        · exact Execution.ensures_raise
        · exact Execution.ensures_pure trivial

theorem managePlatformConnectionLifecycle_tags
    (command : ManagePlatformConnectionLifecycleCommand) :
    (UseCase.managePlatformConnectionLifecycle command).Ensures
      (Tags ports (.managePlatformConnectionLifecycle command)) (fun _ _ => True) history := by
  unfold UseCase.managePlatformConnectionLifecycle
  refine (authorize_ensures _).bind ?_
  rintro after₁ decision -
  refine Execution.Ensures.ite (fun _ => Execution.ensures_raise) ?_
  intro _
  refine (normalizedIdempotencyKey_ensures _).bind ?_
  rintro after₂ key -
  cases key with
  | none => exact applyLifecycleAction_tags command none
  | some key =>
      refine Execution.ensures_select.bind ?_
      rintro after₃ result -
      cases result with
      | none => exact applyLifecycleAction_tags command (some key)
      | some result =>
          refine Execution.ensures_select.bind ?_
          rintro after₄ current -
          cases current with
          | none => exact Execution.ensures_raise
          | some current =>
              refine Execution.Ensures.ite (fun _ => Execution.ensures_raise) ?_
              intro _
              exact Execution.ensures_pure trivial

end UseCases

section Discipline

variable {ports : Ports} {request : Request} {history : ConsoleHistory}
variable {world : ConsoleWorld} {write : Write} {organizationId : UUID}

/-- What identifies an invitation for good. -/
structure SameToken (first second : OrganizationInvitationRecord) : Prop where
  organizationId : first.organizationId = second.organizationId
  tokenHash : first.tokenHash = second.tokenHash

theorem SameToken.rewrite (write : Write) (row : OrganizationInvitationRecord) :
    SameToken row (write.rewriteInvitation row) := by
  unfold Write.rewriteInvitation
  split
  · split <;> exact ⟨rfl, rfl⟩
  · split <;> exact ⟨rfl, rfl⟩
  · split <;> exact ⟨rfl, rfl⟩
  · exact ⟨rfl, rfl⟩

/-- The discipline of the tags; every transaction whatsoever keeps the tokens. -/
def tenantDiscipline (ports : Ports) : Discipline console Request Failure Outcome where
  guard := Tags ports
  post _ _ _ := True
  Inv _ := True
  Evolves before after := Persist SameToken before.store.tables.organizationInvitations
    after.store.tables.organizationInvitations

theorem program_tags (ports : Ports) (request : Request) :
    (request.program ports).Meets (Tags ports request) (fun _ _ => True) [] := by
  have htrivial : ∀ {α : Type} {tag : α → Outcome} {useCase : UseCase α},
      useCase.Ensures (Tags ports request) (fun _ _ => True) [] →
        (UseCase.returning tag useCase).Meets (Tags ports request) (fun _ _ => True) [] :=
    fun hensures => (returning_ensures hensures).meets.mono (fun _ _ hguard => hguard)
      fun _ _ _ => trivial
  cases request with
  | addOrganizationMember command => exact htrivial (addOrganizationMember_tags command)
  | updateOrganizationMember command => exact htrivial (updateOrganizationMember_tags command)
  | removeOrganizationMember command => exact htrivial (removeOrganizationMember_tags command)
  | inviteOrganizationMember command => exact htrivial (inviteOrganizationMember_tags command)
  | acceptOrganizationInvitation command =>
      exact htrivial (acceptOrganizationInvitation_tags command)
  | revokeOrganizationInvitation command =>
      exact htrivial (revokeOrganizationInvitation_tags command)
  | connectPlatformConnection command =>
      exact htrivial (connectPlatformConnection_tags command)
  | managePlatformConnectionLifecycle command =>
      exact htrivial (managePlatformConnectionLifecycle_tags command)
  | _ =>
      refine (program_meets ports _).mono ?_ fun _ _ _ => trivial
      rintro history (write | called) -
      · rintro organizationId ⟨⟩
      · trivial

theorem tenant_verified (ports : Ports) :
    (tenantDiscipline ports).Verified (Request.program ports) where
  refl _ := Persist.refl (fun _ => ⟨rfl, rfl⟩) _
  trans _ _ _ := Persist.trans fun hfirst hsecond =>
    ⟨hfirst.organizationId.trans hsecond.organizationId,
      hfirst.tokenHash.trans hsecond.tokenHash⟩
  meets := program_tags ports
  keeps := by
    intro request history write world after _ _ _ _ happly
    refine ⟨trivial, ?_⟩
    intro row hrow
    have hstatements := Write.apply_eq_some.mp happly
    exact ⟨_, Write.rewriteInvitation_mem hstatements hrow, SameToken.rewrite write row⟩

theorem tenant_holds (ports : Ports) (database : Database) (choices : List ConsoleChoice) :
    (tenantDiscipline ports).Holds (database.after ports choices) :=
  ((Discipline.holds_idle (D := tenantDiscipline ports) trivial fun _ hname => hname).run
    (tenant_verified ports) choices).1

/-- The target of an update or a removal is of the organization when it commits. -/
theorem SawTarget.tenant (hrecalls : Recalls world history) {membershipId userId : UUID}
    {actorRole : OrganizationRole} {target : OrganizationMembershipRecord}
    (htarget : SawTarget history membershipId userId organizationId actorRole target) :
    ∀ row ∈ world.store.tables.organizationMemberships, row.id = membershipId →
      row.organizationId = organizationId := by
  intro row hrow hid
  have hsame := htarget.saw.origin hrecalls hrow (hid.trans htarget.id.symm)
  exact hsame.1.symm.trans htarget.organization

/-- The invitation of a token is of the organization when its acceptance commits. -/
theorem SawInvitation.tenant
    (hinformed : (tenantDiscipline ports).Informed world history)
    {row : OrganizationInvitationRecord} (hsaw : SawInvitation history row)
    (hacts : ∀ invitation ∈ world.store.tables.organizationInvitations,
      invitation.tokenHash = row.tokenHash → invitation.organizationId = organizationId) :
    row.organizationId = organizationId := by
  obtain ⟨past, hpast, hrow⟩ := hsaw
  obtain ⟨kept, hkept, hsame⟩ := hinformed.evolves past (seen_of_recent hpast) row hrow
  exact hsame.organizationId.trans (hacts kept hkept hsame.tokenHash.symm)

/-- Commit rule: whatever a request on an organization may write is within it. -/
theorem Justified.within (hjustified : Justified ports request history (.commit write))
    (htags : Tags ports request history (.commit write)) (hrecalls : Recalls world history)
    (hinformed : (tenantDiscipline ports).Informed world history)
    (hacts : ActsFor ports world.store request organizationId) :
    write.Within world.store organizationId := by
  cases hjustified with
  | add hmay =>
      cases hacts
      exact ⟨htags _ rfl, hmay.organization, fun scope hscope => (hmay.scopes scope hscope).1⟩
  | update hmay =>
      cases hacts
      obtain ⟨actor, target, _, htarget⟩ := hmay.authority
      exact ⟨htags _ rfl, htarget.tenant hrecalls,
        fun scope hscope => (hmay.scopes scope hscope).1⟩
  | remove hmay =>
      cases hacts
      obtain ⟨actor, target, _, _, _, _, htarget⟩ := hmay.authority
      exact ⟨htags _ rfl, htarget.tenant hrecalls⟩
  | invite hmay =>
      cases hacts
      exact ⟨htags _ rfl, hmay.organization, fun scope hscope => (hmay.scopes scope hscope).1⟩
  | deliver =>
      cases hacts
      exact ⟨htags _ rfl, trivial⟩
  | accept hmay =>
      obtain ⟨row, hsaw, htoken, htagged⟩ := htags
      have htenant : row.organizationId = organizationId := by
        apply SawInvitation.tenant hinformed hsaw
        rw [htoken]
        exact hacts
      rw [htenant] at htagged
      refine ⟨htagged, ?_, fun scope hscope => (hmay.scopes scope hscope).1⟩
      exact hmay.organization.trans (htagged.2 _ rfl)
  | revokeInvitation =>
      cases hacts
      exact ⟨htags _ rfl, trivial⟩
  | connect hmay =>
      cases hacts
      exact ⟨htags _ rfl, hmay.organization⟩
  | @change command history auditEvent hmay =>
      cases hacts
      refine ⟨htags _ rfl, rfl, ?_⟩
      intro record hrecord
      obtain ⟨key, _, rfl⟩ := Option.map_eq_some_iff.mp hrecord
      rfl
  | register | create | reconcile | audit => cases hacts

end Discipline

/-- The step leaves the rows of every organization but the one that the execution's
request is on. -/
def Isolated (ports : Ports) (database : Database) (before : List ConsoleChoice)
    (choice : ConsoleChoice) : Prop :=
  ∀ index reply process, choice = .advance index reply →
    (database.after ports before).processes[index]? = some process →
      ∀ organizationId, ActsFor ports (database.after ports before).world.store
          process.request organizationId →
        ∀ other, other ≠ organizationId →
          (database.after ports (before ++ [choice])).world.store.tables.tenant other =
            (database.after ports before).world.store.tables.tenant other

/-- In every run over any database, no step of a request on one organization, whatever
identifiers it was given and whatever becomes of it, changes a row of another. -/
theorem tenant_isolation (ports : Ports) (database : Database)
    (choices : List ConsoleChoice) :
    System.EveryStep (Isolated ports database) choices := by
  intro before choice rest _ index reply process hchoice hprocess organizationId hacts other hne
  rw [Database.after_snoc]
  cases hcommit : (database.after ports before).commit? choice with
  | none => rw [System.step_store_of_no_commit hcommit]
  | some commit =>
      rw [System.step_store_of_commit hcommit]
      have hsame : process = commit.process := by
        rw [hchoice] at hcommit
        exact Option.some.inj (hprocess.symm.trans (System.commit?_process hcommit))
      have hjustified : Justified ports commit.process.request commit.process.history
          (.commit commit.write) := (console_holds ports database before).guard_commit hcommit
      have htags : Tags ports commit.process.request commit.process.history
          (.commit commit.write) := (tenant_holds ports database before).guard_commit hcommit
      obtain ⟨hmem, _, happly⟩ := System.commit?_eq_some hcommit
      have hrecalls := recalls_of_informed
        ((console_holds ports database before).informed commit.process hmem)
      have hinformed := (tenant_holds ports database before).informed commit.process hmem
      have hwithin := hjustified.within htags hrecalls hinformed (hsame ▸ hacts)
      exact hwithin.tenant_eq happly hne

end MuxivoConsole
