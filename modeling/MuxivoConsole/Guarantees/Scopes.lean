/-
Stored scopes against stored roles.  The checks are made on commands, never on
the rows, yet under every interleaving each stored scope is one that the stored
role of its membership or invitation supports.
-/
import MuxivoConsole.Guarantees.Evolution

namespace MuxivoConsole

open Interleaving Relational

/-- Every stored scope is supported by the stored role it goes with. -/
structure ScopesFitRoles (database : Database) : Prop where
  memberships : Fitting
    (fun (scope : MembershipResourceScopeRecord) (row : OrganizationMembershipRecord) =>
      row.role.supportsStored scope.resource scope.action = true)
    MembershipResourceScopeRecord.membershipId database.tables.membershipResourceScopes
    OrganizationMembershipRecord.id database.tables.organizationMemberships
  invitations : Fitting
    (fun (scope : OrganizationInvitationScopeRecord) (row : OrganizationInvitationRecord) =>
      row.role.supportsStored scope.resource scope.action = true)
    OrganizationInvitationScopeRecord.invitationId database.tables.organizationInvitationScopes
    OrganizationInvitationRecord.id database.tables.organizationInvitations

theorem scopesFitRoles_empty : ScopesFitRoles Database.empty :=
  ⟨by simp [Fitting, Database.empty], by simp [Fitting, Database.empty]⟩

section Commits

variable {ports : Ports} {request : Request} {history : ConsoleHistory}
variable {world : ConsoleWorld} {write : Write} {after : Database}

/-- The scopes of an invitation that was read, taken over with its role. -/
theorem MayAccept.scopes_fit {command : AcceptOrganizationInvitationCommand}
    {invitation : OrganizationInvitationRecord} {membership : OrganizationMembershipRecord}
    {scopes : List MembershipResourceScopeRecord}
    (hmay : MayAccept command history invitation membership scopes)
    (hrecalls : Recalls world history) (hstored : ScopesFitRoles world.store) :
    ∀ scope ∈ scopes, scope.membershipId = membership.id ∧
      membership.role.supportsStored scope.resource scope.action = true := by
  intro scope hscope
  obtain ⟨hmembership, source, ⟨past, hpast, hsource⟩, hinvitation, hresource, haction⟩ :=
    hmay.scopes scope hscope
  obtain ⟨earlier, hearlier, hrow⟩ := hmay.saw
  obtain ⟨kept, hkept, hsame⟩ :=
    (hrecalls earlier hearlier).2.tables.invitations invitation hrow
  have hsource' := (hrecalls past hpast).2.tables.invitationScopes hsource
  have hfit : kept.role.supportsStored source.resource source.action = true :=
    hstored.invitations kept hkept source hsource' (hinvitation.trans hsame.id)
  rw [hresource, haction] at hfit
  rw [hmay.role, hsame.role]
  exact ⟨hmembership, hfit⟩

/-- Commit rule: whatever may be written keeps the scopes fitting. -/
theorem commit_keeps_scopes (hstored : ScopesFitRoles world.store)
    (hrecalls : Recalls world history)
    (hjustified : Justified ports request history (.commit write))
    (happly : write.apply world.store = some after) : ScopesFitRoles after := by
  have hstatements := Write.apply_eq_some.mp happly
  have hbefore := world.store.constraints
  have hafter := after.constraints
  obtain ⟨tables, hconstraints⟩ := after
  cases hjustified with
  | add hmay =>
      simp only [Write.statements, Option.some.injEq] at hstatements
      subst hstatements
      refine ⟨hstored.memberships.append hbefore.scopeMembership hafter.membershipId ?_,
        hstored.invitations⟩
      intro scope hscope
      rw [hmay.role]
      exact hmay.scopes scope hscope
  | update hmay =>
      simp only [Write.statements, Option.ite_none_left_eq_some,
        Option.some.injEq] at hstatements
      obtain ⟨_, rfl⟩ := hstatements
      refine ⟨hstored.memberships.replace (fun _ => rfl) ?_, hstored.invitations⟩
      intro scope hscope
      obtain ⟨hid, hsupports⟩ := hmay.scopes scope hscope
      rw [← hmay.role] at hsupports
      exact ⟨hid, fun _ _ _ => hsupports⟩
  | remove hmay =>
      simp only [Write.statements, Option.ite_none_left_eq_some,
        Option.some.injEq] at hstatements
      obtain ⟨_, rfl⟩ := hstatements
      exact ⟨hstored.memberships.mono (List.filter_subset_self _) (List.filter_subset_self _),
        hstored.invitations⟩
  | create hmay =>
      simp only [Write.statements, Option.some.injEq] at hstatements
      subst hstatements
      exact ⟨hstored.memberships.append_childless hbefore.scopeMembership
        hafter.membershipId, hstored.invitations⟩
  | accept hmay =>
      simp only [Write.statements, Option.ite_none_left_eq_some,
        Option.some.injEq] at hstatements
      obtain ⟨_, rfl⟩ := hstatements
      exact ⟨hstored.memberships.append hbefore.scopeMembership hafter.membershipId
          (hmay.scopes_fit hrecalls hstored),
        hstored.invitations.update (fun _ => rfl) fun _ _ hfit => hfit⟩
  | invite hmay =>
      simp only [Write.statements, Option.some.injEq] at hstatements
      subst hstatements
      refine ⟨hstored.memberships, hstored.invitations.append
        hbefore.invitationScopeInvitation hafter.invitationId ?_⟩
      intro scope hscope
      rw [hmay.role]
      exact hmay.scopes scope hscope
  | deliver | revokeInvitation =>
      simp only [Write.statements, Option.ite_none_left_eq_some,
        Option.some.injEq] at hstatements
      obtain ⟨_, rfl⟩ := hstatements
      exact ⟨hstored.memberships,
        hstored.invitations.update (fun _ => rfl) fun _ _ hfit => hfit⟩
  | change hmay | reconcile hmay =>
      simp only [Write.statements, Option.ite_none_left_eq_some,
        Option.some.injEq] at hstatements
      obtain ⟨_, rfl⟩ := hstatements
      exact ⟨hstored.memberships, hstored.invitations⟩
  | _ =>
      simp only [Write.statements, Option.some.injEq] at hstatements
      subst hstatements
      exact ⟨hstored.memberships, hstored.invitations⟩

end Commits

/-- The discipline with fitting scopes. -/
theorem scopesDiscipline_verified (ports : Ports) :
    (consoleDiscipline ports ScopesFitRoles).Verified (Request.program ports) :=
  consoleDiscipline_verified fun _ _ _ _ _ hstored hrecalls hjustified happly =>
    commit_keeps_scopes hstored hrecalls hjustified happly

/-- `membershipAllows` of the web client, which does not know the role matrix. -/
def membershipAllows (membership : Option OrganizationMembership)
    (resource : AuthorizationResource) (action : AuthorizationAction) : Bool :=
  match membership with
  | none => false
  | some membership =>
      if membership.role = .owner then true
      else membership.resourceScopes.elements.any fun scope =>
        scope.resource = resource && scope.action = action

theorem OrganizationRole.supportsStored_eq_true {role : OrganizationRole}
    {resource action : String} (hsupports : role.supportsStored resource action = true) :
    ∃ parsed verb, StrEnum.value parsed = resource ∧ StrEnum.value verb = action ∧
      role.supportsPair parsed verb = true := by
  unfold OrganizationRole.supportsStored at hsupports
  split at hsupports
  · rename_i parsed verb hparsed hverb
    exact ⟨parsed, verb, StrEnum.parse?_eq_some.mp hparsed, StrEnum.parse?_eq_some.mp hverb,
      hsupports⟩
  · cases hsupports

section Evaluators

variable {row : OrganizationMembershipRecord} {scopes : List MembershipResourceScopeRecord}

/-- A membership row whose scopes its role supports reads as a membership. -/
theorem membershipFromRecord_of_fit
    (hfit : ∀ scope ∈ scopes, row.role.supportsStored scope.resource scope.action = true) :
    ∃ membership, membershipFromRecord row scopes = some membership := by
  suffices hparsed : ∃ parsed, scopes.mapM
      (fun scope => scopeFromRecord scope.id scope.resource scope.action) = some parsed by
    obtain ⟨parsed, hparsed⟩ := hparsed
    exact ⟨_, by rw [membershipFromRecord, hparsed]; rfl⟩
  induction scopes with
  | nil => exact ⟨[], rfl⟩
  | cons scope scopes ih =>
      obtain ⟨parsed, hparsed⟩ := ih fun other hother => hfit other (List.mem_cons_of_mem _ hother)
      obtain ⟨resource, action, hresource, haction, _⟩ :=
        OrganizationRole.supportsStored_eq_true (hfit scope List.mem_cons_self)
      have hscope : scopeFromRecord scope.id scope.resource scope.action =
          some ⟨resource, action, some scope.id⟩ :=
        scopeFromRecord_eq_some.mpr ⟨hresource, haction, rfl⟩
      exact ⟨_, by rw [List.mapM_cons, hscope, hparsed]; rfl⟩

/-- Where the scopes fit, the role matrix has nothing to add. -/
theorem supportsPair_of_scope
    (hfit : ∀ scope ∈ scopes, row.role.supportsStored scope.resource scope.action = true)
    {membership : OrganizationMembership}
    (hread : membershipFromRecord row scopes = some membership)
    {scope : MembershipResourceScope} (hscope : scope ∈ membership.resourceScopes.elements) :
    membership.role.supportsPair scope.resource scope.action = true := by
  obtain ⟨_, _, _, hrole, hscopes⟩ := membershipFromRecord_eq_some hread
  obtain ⟨stored, hstored, hparse⟩ := (hscopes scope).mp hscope
  obtain ⟨hresource, haction, _⟩ := scopeFromRecord_eq_some.mp hparse
  have hsupports := hfit stored hstored
  rw [← hresource, ← haction, OrganizationRole.supportsStored_value] at hsupports
  rw [hrole]
  exact hsupports

/-- Where the scopes fit, the client and the backend agree. -/
theorem membershipAllows_eq
    (hfit : ∀ scope ∈ scopes, row.role.supportsStored scope.resource scope.action = true)
    {membership : OrganizationMembership}
    (hread : membershipFromRecord row scopes = some membership)
    (resource : AuthorizationResource) (action : AuthorizationAction) :
    membershipAllows (some membership) resource action =
      membership.allows ⟨row.userId, row.organizationId, resource, action⟩ := by
  obtain ⟨_, hactor, horganization, _, _⟩ := membershipFromRecord_eq_some hread
  rw [Bool.eq_iff_iff, OrganizationMembership.allows_iff]
  unfold membershipAllows
  by_cases howner : membership.role = .owner
  · simp [howner, hactor, horganization]
  · simp only [howner, ↓reduceIte, List.any_eq_true, Bool.and_eq_true, decide_eq_true_eq,
      hactor, horganization, true_and, false_or]
    constructor
    · rintro ⟨scope, hscope, hresource, haction⟩
      have hsupports := supportsPair_of_scope hfit hread hscope
      rw [hresource, haction] at hsupports
      exact ⟨hsupports, scope, hscope, hresource, haction⟩
    · intro hallows
      exact hallows.2

end Evaluators

/-- In every reachable state the stored scopes fit the stored roles, and for
every stored membership the client gives the backend's answer. -/
theorem stored_scopes_fit (ports : Ports) (choices : List ConsoleChoice) :
    ScopesFitRoles (Database.empty.after ports choices).world.store ∧
      ∀ row ∈ (Database.empty.after ports
          choices).world.store.tables.organizationMemberships,
        ∃ membership, (Database.empty.after ports choices).world.store.membership row.userId
            row.organizationId = some membership ∧
          ∀ resource action, membershipAllows (some membership) resource action =
            membership.allows ⟨row.userId, row.organizationId, resource, action⟩ := by
  have hfits := (consoleDiscipline_holds (scopesDiscipline_verified ports)
    scopesFitRoles_empty choices).inv.2
  refine ⟨hfits, ?_⟩
  intro row hrow
  have hfit : ∀ scope ∈ (Database.empty.after ports choices).world.store.membershipScopes row.id,
      row.role.supportsStored scope.resource scope.action = true := by
    intro scope hscope
    obtain ⟨hmem, hid⟩ := mem_membershipScopes.mp hscope
    exact hfits.memberships row hrow scope hmem hid
  obtain ⟨membership, hread⟩ := membershipFromRecord_of_fit hfit
  refine ⟨membership, ?_, membershipAllows_eq hfit hread⟩
  rw [Database.membership, membershipRow_of_mem hrow]
  exact hread

end MuxivoConsole
