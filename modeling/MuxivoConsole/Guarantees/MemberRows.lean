/-
The transactions that make a member, by adding one or by an accepted invitation: when they
commit, and which membership a reader finds afterwards.
-/
import MuxivoConsole.Guarantees.Alone
import Mathlib.Tactic.Tauto

namespace Relational

variable {ρ κ : Type} {key : ρ → κ} {rows added : List ρ}

/-- Rows with keys of their own keep a table unique. -/
theorem uniqueOn_append :
    UniqueOn key (rows ++ added) ↔
      UniqueOn key rows ∧ UniqueOn key added ∧
        ∀ row ∈ added, key row ∉ rows.map key := by
  simp only [UniqueOn, List.map_append, List.nodup_append]
  constructor
  · rintro ⟨hrows, hadded, hapart⟩
    refine ⟨hrows, hadded, fun row hrow hmem => ?_⟩
    exact hapart _ hmem _ (List.mem_map_of_mem hrow) rfl
  · rintro ⟨hrows, hadded, hapart⟩
    refine ⟨hrows, hadded, ?_⟩
    intro first hfirst second hsecond hsame
    obtain ⟨row, hrow, rfl⟩ := List.mem_map.mp hsecond
    exact hapart row hrow (hsame ▸ hfirst)

end Relational

namespace MuxivoConsole

open Interleaving Relational

namespace Database

/-- The identifiers in the tables that making a member writes to. -/
def memberIdentifiers (database : Database) : List UUID :=
  database.membershipIds ++
    database.tables.membershipResourceScopes.map MembershipResourceScopeRecord.id ++
    database.tables.organizationInvitations.map OrganizationInvitationRecord.id ++
    database.tables.organizationInvitationScopes.map OrganizationInvitationScopeRecord.id ++
    database.tables.auditEvents.map AuditEvent.id

end Database

/-- The generator gave names that differ from each other and from what the tables use. -/
structure FreshNames (database : Database) (names : List UUID) : Prop where
  distinct : names.Nodup
  unused : ∀ name ∈ names, name ∉ database.memberIdentifiers

namespace FreshNames

variable {database : Database} {names : List UUID} {name : UUID}

theorem sublist (hfresh : FreshNames database names) {some : List UUID}
    (hsome : some.Sublist names) : FreshNames database some :=
  ⟨hfresh.distinct.sublist hsome, fun name hname => hfresh.unused name (hsome.subset hname)⟩

theorem membership (hfresh : FreshNames database names) (hname : name ∈ names) :
    name ∉ database.tables.organizationMemberships.map OrganizationMembershipRecord.id := by
  intro hmem
  have hunused := hfresh.unused name hname
  simp only [Database.memberIdentifiers, Database.membershipIds, List.mem_append] at hunused
  tauto

theorem scope (hfresh : FreshNames database names) (hname : name ∈ names) :
    name ∉ database.tables.membershipResourceScopes.map MembershipResourceScopeRecord.id := by
  intro hmem
  have hunused := hfresh.unused name hname
  simp only [Database.memberIdentifiers, List.mem_append] at hunused
  tauto

theorem invitation (hfresh : FreshNames database names) (hname : name ∈ names) :
    name ∉ database.tables.organizationInvitations.map OrganizationInvitationRecord.id := by
  intro hmem
  have hunused := hfresh.unused name hname
  simp only [Database.memberIdentifiers, List.mem_append] at hunused
  tauto

theorem invitationScope (hfresh : FreshNames database names) (hname : name ∈ names) :
    name ∉ database.tables.organizationInvitationScopes.map
      OrganizationInvitationScopeRecord.id := by
  intro hmem
  have hunused := hfresh.unused name hname
  simp only [Database.memberIdentifiers, List.mem_append] at hunused
  tauto

theorem auditEvent (hfresh : FreshNames database names) (hname : name ∈ names) :
    name ∉ database.tables.auditEvents.map AuditEvent.id := by
  intro hmem
  have hunused := hfresh.unused name hname
  simp only [Database.memberIdentifiers, List.mem_append] at hunused
  tauto

end FreshNames

/-- A transaction whose result violates no constraint is not rolled back. -/
theorem Write.apply_ne_none {write : Write} {database : Database} {tables : Tables}
    (hstatements : write.statements database.tables = some tables)
    (hconstraints : tables.Constraints) : write.apply database ≠ none := by
  have happly : write.apply database = some ⟨tables, hconstraints⟩ :=
    Write.apply_eq_some.mpr hstatements
  rw [happly]
  exact Option.some_ne_none _

section Constraints

variable {tables : Tables}

/-- A membership of somebody who is none yet, with scopes and an audit event, keeps every
constraint. -/
theorem Tables.Constraints.join (hbefore : tables.Constraints)
    {membership : OrganizationMembershipRecord} {scopes : List MembershipResourceScopeRecord}
    {auditEvent : AuditEvent}
    (hid : membership.id ∉ tables.organizationMemberships.map OrganizationMembershipRecord.id)
    (houtsider : ∀ row ∈ tables.organizationMemberships,
      ¬(row.organizationId = membership.organizationId ∧ row.userId = membership.userId))
    (horganization : membership.organizationId ∈ tables.organizations.map OrganizationRecord.id)
    (huser : membership.userId ∈ tables.users.map UserRecord.id)
    (hdistinct : UniqueOn MembershipResourceScopeRecord.id scopes)
    (hscopes : ∀ scope ∈ scopes, scope.membershipId = membership.id ∧
      scope.id ∉ tables.membershipResourceScopes.map MembershipResourceScopeRecord.id)
    (haudit : auditEvent.id ∉ tables.auditEvents.map AuditEvent.id) :
    { tables with
      organizationMemberships := tables.organizationMemberships ++ [membership]
      membershipResourceScopes := tables.membershipResourceScopes ++ scopes
      auditEvents := tables.auditEvents ++ [auditEvent] : Tables }.Constraints :=
  { hbefore with
    membershipId := by
      refine uniqueOn_snoc.mpr ⟨hbefore.membershipId, ?_⟩
      intro other hother hsame
      exact hid (hsame ▸ List.mem_map_of_mem hother)
    organizationMembership := by
      refine uniqueOn_snoc.mpr ⟨hbefore.organizationMembership, ?_⟩
      intro other hother hsame
      rw [Prod.mk.injEq] at hsame
      exact houtsider other hother hsame
    scopeId := by
      refine uniqueOn_append.mpr ⟨hbefore.scopeId, hdistinct, ?_⟩
      intro scope hscope
      exact (hscopes scope hscope).2
    auditEventId := by
      refine uniqueOn_snoc.mpr ⟨hbefore.auditEventId, ?_⟩
      intro other hother hsame
      exact haudit (hsame ▸ List.mem_map_of_mem hother)
    membershipOrganization := by
      intro other hother
      rcases List.mem_append.mp hother with hother | hother
      · exact hbefore.membershipOrganization other hother
      · rw [List.mem_singleton.mp hother]
        exact horganization
    membershipUser := by
      intro other hother
      rcases List.mem_append.mp hother with hother | hother
      · exact hbefore.membershipUser other hother
      · rw [List.mem_singleton.mp hother]
        exact huser
    scopeMembership := by
      intro scope hscope
      rw [List.map_append, List.mem_append]
      rcases List.mem_append.mp hscope with hscope | hscope
      · exact Or.inl (hbefore.scopeMembership scope hscope)
      · rw [(hscopes scope hscope).1]
        exact Or.inr List.mem_cons_self }

/-- A new invitation of a lesser role, with scopes and an audit event, keeps every constraint
if no pair of resource and action comes twice. -/
theorem Tables.Constraints.invite (hbefore : tables.Constraints)
    {invitation : OrganizationInvitationRecord}
    {scopes : List OrganizationInvitationScopeRecord} {auditEvent : AuditEvent}
    (hid : invitation.id ∉ tables.organizationInvitations.map OrganizationInvitationRecord.id)
    (htoken : ∀ row ∈ tables.organizationInvitations, row.tokenHash ≠ invitation.tokenHash)
    (hrole : invitation.role ≠ .owner)
    (horganization : invitation.organizationId ∈ tables.organizations.map OrganizationRecord.id)
    (hinviter : ∀ inviter, invitation.invitedByUserId = some inviter →
      inviter ∈ tables.users.map UserRecord.id)
    (hdistinct : UniqueOn OrganizationInvitationScopeRecord.id scopes)
    (hpairs : UniqueOn (fun scope : OrganizationInvitationScopeRecord =>
      (scope.resource, scope.action)) scopes)
    (hscopes : ∀ scope ∈ scopes, scope.invitationId = invitation.id ∧
      scope.id ∉ tables.organizationInvitationScopes.map OrganizationInvitationScopeRecord.id)
    (haudit : auditEvent.id ∉ tables.auditEvents.map AuditEvent.id) :
    { tables with
      organizationInvitations := tables.organizationInvitations ++ [invitation]
      organizationInvitationScopes := tables.organizationInvitationScopes ++ scopes
      auditEvents := tables.auditEvents ++ [auditEvent] : Tables }.Constraints :=
  { hbefore with
    invitationId := by
      refine uniqueOn_snoc.mpr ⟨hbefore.invitationId, ?_⟩
      intro other hother hsame
      exact hid (hsame ▸ List.mem_map_of_mem hother)
    invitationTokenHash := uniqueOn_snoc.mpr ⟨hbefore.invitationTokenHash, htoken⟩
    invitationScopeId := by
      refine uniqueOn_append.mpr ⟨hbefore.invitationScopeId, hdistinct, ?_⟩
      intro scope hscope
      exact (hscopes scope hscope).2
    invitationScope := by
      refine uniqueOn_append.mpr ⟨hbefore.invitationScope, ?_, ?_⟩
      · refine List.Nodup.of_map Prod.snd ?_
        rw [List.map_map]
        exact hpairs
      · intro scope hscope hmem
        obtain ⟨other, hother, hsame⟩ := List.mem_map.mp hmem
        rw [Prod.mk.injEq, (hscopes scope hscope).1] at hsame
        exact hid (hsame.1 ▸ hbefore.invitationScopeInvitation other hother)
    auditEventId := by
      refine uniqueOn_snoc.mpr ⟨hbefore.auditEventId, ?_⟩
      intro other hother hsame
      exact haudit (hsame ▸ List.mem_map_of_mem hother)
    invitationOrganization := by
      intro other hother
      rcases List.mem_append.mp hother with hother | hother
      · exact hbefore.invitationOrganization other hother
      · rw [List.mem_singleton.mp hother]
        exact horganization
    invitationInviter := by
      intro inviter hmem
      rw [List.filterMap_append, List.mem_append] at hmem
      rcases hmem with hmem | hmem
      · exact hbefore.invitationInviter inviter hmem
      · obtain ⟨row, hrow, hrowInviter⟩ := List.mem_filterMap.mp hmem
        rw [List.mem_singleton.mp hrow] at hrowInviter
        exact hinviter inviter hrowInviter
    invitationRole := by
      intro other hother
      rcases List.mem_append.mp hother with hother | hother
      · exact hbefore.invitationRole other hother
      · rw [List.mem_singleton.mp hother]
        exact hrole
    invitationScopeInvitation := by
      intro scope hscope
      rw [List.map_append, List.mem_append]
      rcases List.mem_append.mp hscope with hscope | hscope
      · exact Or.inl (hbefore.invitationScopeInvitation scope hscope)
      · rw [(hscopes scope hscope).1]
        exact Or.inr List.mem_cons_self }

/-- Rewriting invitations keeps every constraint if the columns stay that they read. -/
theorem Tables.Constraints.rewriteInvitations (hbefore : tables.Constraints)
    {condition : OrganizationInvitationRecord → Bool}
    {change : OrganizationInvitationRecord → OrganizationInvitationRecord}
    (hid : ∀ row, (change row).id = row.id)
    (htoken : ∀ row, (change row).tokenHash = row.tokenHash)
    (horganization : ∀ row, (change row).organizationId = row.organizationId)
    (hinviter : ∀ row, (change row).invitedByUserId = row.invitedByUserId)
    (hrole : ∀ row, (change row).role = row.role) :
    { tables with
      organizationInvitations := update condition change tables.organizationInvitations :
        Tables }.Constraints :=
  { hbefore with
    invitationId := by
      unfold UniqueOn
      rw [map_update hid]
      exact hbefore.invitationId
    invitationTokenHash := by
      unfold UniqueOn
      rw [map_update htoken]
      exact hbefore.invitationTokenHash
    invitationOrganization := by
      intro other hother
      rcases mem_update.mp hother with ⟨hother, _⟩ | ⟨old, hold, _, rfl⟩
      · exact hbefore.invitationOrganization other hother
      · rw [horganization]
        exact hbefore.invitationOrganization old hold
    invitationInviter := by
      intro inviter hmem
      obtain ⟨other, hother, hinvited⟩ := List.mem_filterMap.mp hmem
      apply hbefore.invitationInviter inviter
      rcases mem_update.mp hother with ⟨hother, _⟩ | ⟨old, hold, _, rfl⟩
      · exact List.mem_filterMap.mpr ⟨other, hother, hinvited⟩
      · rw [hinviter] at hinvited
        exact List.mem_filterMap.mpr ⟨old, hold, hinvited⟩
    invitationRole := by
      intro other hother
      rcases mem_update.mp hother with ⟨hother, _⟩ | ⟨old, hold, _, rfl⟩
      · exact hbefore.invitationRole other hother
      · rw [hrole]
        exact hbefore.invitationRole old hold
    invitationScopeInvitation := by
      intro scope hscope
      rw [map_update hid]
      exact hbefore.invitationScopeInvitation scope hscope }

end Constraints

section Scopes

/-- What a scope grants. -/
def MembershipResourceScope.grant (scope : MembershipResourceScope) :
    AuthorizationResource × AuthorizationAction :=
  (scope.resource, scope.action)

/-- The scope with an identifier of the generator. -/
def MembershipResourceScope.identified (scope : MembershipResourceScope) (id : UUID) :
    MembershipResourceScope :=
  { scope with id := some id }

/-- The scopes with one identifier each. -/
def identifiedScopes (scopes : List MembershipResourceScope) (names : List UUID) :
    List MembershipResourceScope :=
  List.zipWith MembershipResourceScope.identified scopes names

/-- The rows of the scopes, with one identifier each. -/
def identifiedRows {ρ : Type} (row : UUID → MembershipResourceScope → ρ)
    (scopes : List MembershipResourceScope) (names : List UUID) : List ρ :=
  List.zipWith (fun scope id => row id scope) scopes names

variable {scopes : List MembershipResourceScope} {names : List UUID}
variable {ρ : Type} {row : UUID → MembershipResourceScope → ρ}

theorem map_identifiedRows_id {column : ρ → UUID} (hcolumn : ∀ id scope, column (row id scope) = id)
    (hlength : names.length = scopes.length) :
    (identifiedRows row scopes names).map column = names := by
  induction scopes generalizing names with
  | nil => simpa [identifiedRows] using hlength
  | cons scope scopes ih =>
      cases names with
      | nil => simp at hlength
      | cons id names =>
          simp only [List.length_cons, Nat.add_right_cancel_iff] at hlength
          have hrest := ih hlength
          simp only [identifiedRows] at hrest
          simp only [identifiedRows, List.zipWith_cons_cons, List.map_cons, hcolumn, hrest]

theorem map_identifiedRows {β : Type} {column : ρ → β} {value : MembershipResourceScope → β}
    (hcolumn : ∀ id scope, column (row id scope) = value scope)
    (hlength : names.length = scopes.length) :
    (identifiedRows row scopes names).map column = scopes.map value := by
  induction scopes generalizing names with
  | nil => simp [identifiedRows]
  | cons scope scopes ih =>
      cases names with
      | nil => simp at hlength
      | cons id names =>
          simp only [List.length_cons, Nat.add_right_cancel_iff] at hlength
          have hrest := ih hlength
          simp only [identifiedRows] at hrest
          simp only [identifiedRows, List.zipWith_cons_cons, List.map_cons, hcolumn, hrest]

theorem mem_identifiedRows {record : ρ} (hrecord : record ∈ identifiedRows row scopes names) :
    ∃ scope ∈ scopes, ∃ id ∈ names, record = row id scope := by
  induction scopes generalizing names with
  | nil => cases hrecord
  | cons scope scopes ih =>
      cases names with
      | nil => cases hrecord
      | cons id names =>
          rcases List.mem_cons.mp hrecord with rfl | hrecord
          · exact ⟨scope, List.mem_cons_self, id, List.mem_cons_self, rfl⟩
          · obtain ⟨other, hother, name, hname, hrow⟩ := ih hrecord
            exact ⟨other, List.mem_cons_of_mem _ hother, name, List.mem_cons_of_mem _ hname,
              hrow⟩

/-- What is written for identified scopes is read back as these scopes. -/
theorem mapM_identifiedRows {read : ρ → Option MembershipResourceScope}
    (hread : ∀ id scope, read (row id scope) = some (scope.identified id)) :
    (identifiedRows row scopes names).mapM read = some (identifiedScopes scopes names) := by
  induction scopes generalizing names with
  | nil => rfl
  | cons scope scopes ih =>
      cases names with
      | nil => rfl
      | cons id names =>
          have hrest := @ih names
          simp only [identifiedRows, identifiedScopes] at hrest
          simp only [identifiedRows, identifiedScopes, List.zipWith_cons_cons, List.mapM_cons,
            hread, hrest]
          rfl

/-- Scopes with identifiers of their own are a set as they are. -/
theorem elements_identifiedScopes (hlength : names.length = scopes.length)
    (hdistinct : names.Nodup) :
    (FrozenSet.of (identifiedScopes scopes names)).elements =
      identifiedScopes scopes names := by
  have hmap : (identifiedScopes scopes names).map MembershipResourceScope.id =
      names.map some := by
    induction scopes generalizing names with
    | nil =>
        have hnil : names = [] := by simpa using hlength
        rw [hnil]
        rfl
    | cons scope scopes ih =>
        cases names with
        | nil => simp at hlength
        | cons id names =>
            simp only [List.length_cons, Nat.add_right_cancel_iff] at hlength
            have hrest := ih hlength hdistinct.of_cons
            simp only [identifiedScopes] at hrest
            simp only [identifiedScopes, List.zipWith_cons_cons, List.map_cons, hrest]
            rfl
  apply List.Nodup.dedup
  apply List.Nodup.of_map MembershipResourceScope.id
  rw [hmap]
  exact hdistinct.map (Option.some_injective UUID)

theorem map_grant_identifiedScopes (hlength : names.length = scopes.length) :
    (identifiedScopes scopes names).map MembershipResourceScope.grant =
      scopes.map MembershipResourceScope.grant :=
  @map_identifiedRows scopes names _ (fun id scope => scope.identified id) _ _ _ (fun _ _ => rfl)
    hlength

theorem scopeRecords_identifiedScopes {message : String} :
    UseCase.scopeRecords row message (identifiedScopes scopes names) =
      .ok (identifiedRows (fun id scope => row id (scope.identified id)) scopes names) := by
  induction scopes generalizing names with
  | nil => rfl
  | cons scope scopes ih =>
      cases names with
      | nil => rfl
      | cons id names =>
          have hrest := @ih names
          simp only [identifiedRows, identifiedScopes] at hrest
          simp only [identifiedRows, identifiedScopes, List.zipWith_cons_cons,
            MembershipResourceScope.identified, UseCase.scopeRecords]
          simp only [MembershipResourceScope.identified] at hrest
          rw [hrest]
          rfl

variable {start store : Database} {inputs : List (Input console)}

/-- Naming scopes draws one name each. -/
theorem scopesWithIds_runs {identify : MembershipResourceScope → UseCase UUID}
    (hidentify : ∀ scope ∈ scopes, identify scope = UseCase.newIdentifier)
    {outcome : Except Failure (List MembershipResourceScope)}
    (hruns : (UseCase.scopesWithIds identify scopes).Runs start inputs outcome store) :
    ∃ names : List UUID, names.length = scopes.length ∧
      inputs = names.map (fun name => Input.drew (I := console) name) ∧
      outcome = .ok (identifiedScopes scopes names) ∧ store = start := by
  induction scopes generalizing inputs outcome store with
  | nil =>
      obtain ⟨rfl, rfl, rfl⟩ := hruns
      exact ⟨[], rfl, rfl, rfl, rfl⟩
  | cons scope scopes ih =>
      unfold UseCase.scopesWithIds at hruns
      rw [hidentify scope List.mem_cons_self] at hruns
      obtain ⟨name, rest, rfl, hrest⟩ := Execution.runs_newName_bind.mp hruns
      have hothers : ∀ other ∈ scopes, identify other = UseCase.newIdentifier :=
        fun other hother => hidentify other (List.mem_cons_of_mem _ hother)
      rcases Execution.runs_bind.mp hrest with
        ⟨first, second, middle, value, rfl, hfirst, hsecond⟩ | ⟨error, herror, _⟩
      · obtain ⟨names, hlength, rfl, hvalue, rfl⟩ := ih hothers hfirst
        cases hvalue
        obtain ⟨rfl, rfl, rfl⟩ := hsecond
        refine ⟨name :: names, by simp [hlength], by simp, rfl, rfl⟩
      · obtain ⟨names, _, _, hvalue, _⟩ := ih hothers herror
        cases hvalue

/-- A scope without an identifier draws one. -/
theorem identify_fresh {scope : MembershipResourceScope} (hid : scope.id = none) :
    (match scope.id with
      | some id => pure id
      | none => UseCase.newIdentifier : UseCase UUID) = UseCase.newIdentifier := by
  rw [hid]

/-- `assign_scope_ids` for scopes without identifiers. -/
theorem assignScopeIds_runs (hids : ∀ scope ∈ scopes, scope.id = none)
    {outcome : Except Failure (FrozenSet MembershipResourceScope)}
    (hruns : (UseCase.assignScopeIds scopes).Runs start inputs outcome store) :
    ∃ names : List UUID, names.length = scopes.length ∧
      inputs = names.map (fun name => Input.drew (I := console) name) ∧
      outcome = .ok (FrozenSet.of (identifiedScopes scopes names)) ∧ store = start := by
  unfold UseCase.assignScopeIds at hruns
  rcases Execution.runs_bind.mp hruns with
    ⟨first, second, middle, value, rfl, hfirst, hsecond⟩ | ⟨error, herror, _⟩
  · obtain ⟨names, hlength, rfl, hvalue, rfl⟩ := scopesWithIds_runs
      (fun scope hscope => identify_fresh (hids scope hscope)) hfirst
    cases hvalue
    obtain ⟨rfl, rfl, rfl⟩ := hsecond
    exact ⟨names, hlength, by simp, rfl, rfl⟩
  · obtain ⟨names, _, _, hvalue, _⟩ := scopesWithIds_runs
      (fun scope hscope => identify_fresh (hids scope hscope)) herror
    cases hvalue

/-- `_fresh_scope_ids` -/
theorem freshScopeIds_runs {set : FrozenSet MembershipResourceScope}
    {outcome : Except Failure (FrozenSet MembershipResourceScope)}
    (hruns : (UseCase.freshScopeIds set).Runs start inputs outcome store) :
    ∃ names : List UUID, names.length = set.elements.length ∧
      inputs = names.map (fun name => Input.drew (I := console) name) ∧
      outcome = .ok (FrozenSet.of (identifiedScopes set.elements names)) ∧ store = start := by
  unfold UseCase.freshScopeIds at hruns
  rcases Execution.runs_bind.mp hruns with
    ⟨first, second, middle, value, rfl, hfirst, hsecond⟩ | ⟨error, herror, _⟩
  · obtain ⟨names, hlength, rfl, hvalue, rfl⟩ := scopesWithIds_runs (fun _ _ => rfl) hfirst
    cases hvalue
    obtain ⟨rfl, rfl, rfl⟩ := hsecond
    exact ⟨names, hlength, by simp, rfl, rfl⟩
  · obtain ⟨names, _, _, hvalue, _⟩ := scopesWithIds_runs (fun _ _ => rfl) herror
    cases hvalue

end Scopes

section Joining

variable {database after start store : Database} {inputs : List (Input console)}
variable {scopes : List MembershipResourceScope} {names : List UUID}
variable {actorId organizationId userId : UUID} {role : OrganizationRole}

@[simp] theorem drawnNames_map_drew {names : List UUID} :
    drawnNames (names.map fun name => Input.drew (I := console) name) = names := by
  induction names with
  | nil => rfl
  | cons name names ih => rw [List.map_cons, drawnNames_drew, ih]

/-- The database holds a membership of the user with this role and exactly these grants. -/
def Database.Joined (database : Database) (organizationId userId : UUID)
    (role : OrganizationRole)
    (grants : List (AuthorizationResource × AuthorizationAction)) : Prop :=
  ∃ membership, database.membership userId organizationId = some membership ∧
    membership.role = role ∧
    ∀ grant, grant ∈ membership.resourceScopes.elements.map MembershipResourceScope.grant ↔
      grant ∈ grants

/-- Who the address belongs to can sign in. -/
theorem active_of_emailLookupHash {emailLookupHash : String}
    (huser : database.activeUserIdByEmailLookupHash emailLookupHash = some userId) :
    database.userStatus userId = some .active ∧
      userId ∈ database.tables.users.map UserRecord.id := by
  simp only [Database.activeUserIdByEmailLookupHash, Option.bind_eq_bind,
    Option.bind_eq_some_iff] at huser
  obtain ⟨email, _, user, hfound, hid⟩ := huser
  cases hid
  have huser := List.mem_of_find?_eq_some hfound
  have hcondition := List.find?_some hfound
  simp only [Bool.and_eq_true, beq_iff_eq] at hcondition
  have hrow : database.tables.users.find? (·.id == user.id) = some user := by
    apply Relational.find?_eq_some database.constraints.userId huser
    · simp
    · intro other _ hother
      exact beq_iff_eq.mp hother
  refine ⟨?_, List.mem_map_of_mem huser⟩
  rw [Database.userStatus, hrow, Option.map_some, hcondition.2]

/-- The organization of a membership exists. -/
theorem organization_of_membership {membership : OrganizationMembership}
    (hmembership : database.membership actorId organizationId = some membership) :
    organizationId ∈ database.tables.organizations.map OrganizationRecord.id := by
  obtain ⟨row, hrow, _⟩ := Option.bind_eq_some_iff.mp hmembership
  obtain ⟨hmem, _, horganization⟩ := membershipRow_eq_some hrow
  rw [← horganization]
  exact database.constraints.membershipOrganization row hmem

/-- Its user exists. -/
theorem user_of_membership {membership : OrganizationMembership}
    (hmembership : database.membership actorId organizationId = some membership) :
    actorId ∈ database.tables.users.map UserRecord.id := by
  obtain ⟨row, hrow, _⟩ := Option.bind_eq_some_iff.mp hmembership
  obtain ⟨hmem, hactor, _⟩ := membershipRow_eq_some hrow
  rw [← hactor]
  exact database.constraints.membershipUser row hmem

/-- A member row that was added last is read back with its scopes. -/
theorem joined_of_rows {membership : OrganizationMembershipRecord}
    (hmemberships : after.tables.organizationMemberships =
      database.tables.organizationMemberships ++ [membership])
    (hscopes : after.tables.membershipResourceScopes =
      database.tables.membershipResourceScopes ++
        identifiedRows (UseCase.membershipScopeRecord membership.id) scopes names)
    (hfresh : membership.id ∉ database.membershipIds)
    (hlength : names.length = scopes.length) (hdistinct : names.Nodup) :
    after.Joined membership.organizationId membership.userId membership.role
      (scopes.map MembershipResourceScope.grant) := by
  have hrow : after.membershipRow membership.userId membership.organizationId =
      some membership := by
    apply membershipRow_of_mem
    rw [hmemberships]
    exact List.mem_append_right _ List.mem_cons_self
  have hold : database.tables.membershipResourceScopes.filter
      (·.membershipId == membership.id) = [] := by
    apply List.filter_eq_nil_iff.mpr
    intro scope hscope hsame
    have hparent := database.constraints.scopeMembership scope hscope
    rw [beq_iff_eq.mp hsame] at hparent
    exact hfresh hparent
  have hnew : (identifiedRows (UseCase.membershipScopeRecord membership.id) scopes names).filter
      (·.membershipId == membership.id) =
        identifiedRows (UseCase.membershipScopeRecord membership.id) scopes names := by
    apply List.filter_eq_self.mpr
    intro record hrecord
    obtain ⟨scope, _, id, _, rfl⟩ := mem_identifiedRows hrecord
    exact beq_self_eq_true _
  have hread : (identifiedRows (UseCase.membershipScopeRecord membership.id) scopes
      names).mapM (fun scope => scopeFromRecord scope.id scope.resource scope.action) =
        some (identifiedScopes scopes names) := by
    apply mapM_identifiedRows
    intro id scope
    exact scopeFromRecord_eq_some.mpr ⟨rfl, rfl, rfl⟩
  refine ⟨{
    id := some membership.id
    actorId := membership.userId
    organizationId := membership.organizationId
    role := membership.role
    resourceScopes := FrozenSet.of (identifiedScopes scopes names) }, ?_, rfl, ?_⟩
  · rw [Database.membership, hrow, Option.bind_some, Database.membershipScopes, hscopes,
      List.filter_append, hold, hnew, List.nil_append, membershipFromRecord, hread]
    rfl
  · intro grant
    rw [elements_identifiedScopes hlength hdistinct, map_grant_identifiedScopes hlength]

/-- What `add_member` and `accept` do with scopes that the use case identified. -/
theorem addMember_eq {id : UUID} {auditEvent : AuditEvent}
    (hlength : names.length = scopes.length) (hdistinct : names.Nodup) :
    UseCase.addMember
      { id := some id
        actorId := userId
        organizationId
        role
        resourceScopes := FrozenSet.of (identifiedScopes scopes names) } auditEvent =
      UseCase.save (Write.addMember ⟨id, organizationId, userId, role⟩
        (identifiedRows (UseCase.membershipScopeRecord id) scopes names) auditEvent) := by
  unfold UseCase.addMember
  dsimp only
  rw [elements_identifiedScopes hlength hdistinct, scopeRecords_identifiedScopes]
  rfl

theorem acceptInvitation_eq {id : UUID} {auditEvent : AuditEvent}
    {invitation : OrganizationInvitation} {acceptedAt : Instant}
    (hlength : names.length = scopes.length) (hdistinct : names.Nodup) :
    UseCase.acceptInvitation invitation
      { id := some id
        actorId := userId
        organizationId
        role
        resourceScopes := FrozenSet.of (identifiedScopes scopes names) } acceptedAt auditEvent =
      UseCase.save (Write.acceptInvitation invitation.fields.id
        invitation.fields.organizationId ⟨id, organizationId, userId, role⟩
        (identifiedRows (UseCase.membershipScopeRecord id) scopes names) acceptedAt
        auditEvent) := by
  unfold UseCase.acceptInvitation
  dsimp only
  rw [elements_identifiedScopes hlength hdistinct, scopeRecords_identifiedScopes]
  rfl

end Joining

end MuxivoConsole
