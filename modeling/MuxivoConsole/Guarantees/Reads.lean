/-
What the reading steps of the use cases leave in a program's history.
-/
import MuxivoConsole.Guarantees.Knowledge

namespace MuxivoConsole

open Interleaving

theorem membershipRow_eq_some {database : Database} {actorId organizationId : UUID}
    {row : OrganizationMembershipRecord}
    (hrow : database.membershipRow actorId organizationId = some row) :
    row ∈ database.tables.organizationMemberships ∧ row.userId = actorId ∧
      row.organizationId = organizationId := by
  have hfound := List.find?_some hrow
  simp only [Bool.and_eq_true, beq_iff_eq] at hfound
  exact ⟨List.mem_of_find?_eq_some hrow, hfound.1, hfound.2⟩

/-- A stored membership is the one that its user and organization select. -/
theorem membershipRow_of_mem {database : Database} {row : OrganizationMembershipRecord}
    (hrow : row ∈ database.tables.organizationMemberships) :
    database.membershipRow row.userId row.organizationId = some row := by
  apply Relational.find?_eq_some database.constraints.organizationMembership hrow
  · simp
  · intro other _ hother
    simp only [Bool.and_eq_true, beq_iff_eq] at hother
    rw [hother.1, hother.2]

theorem mem_membershipScopes {database : Database} {membershipId : UUID}
    {scope : MembershipResourceScopeRecord} :
    scope ∈ database.membershipScopes membershipId ↔
      scope ∈ database.tables.membershipResourceScopes ∧
        scope.membershipId = membershipId := by
  simp [Database.membershipScopes]

/-- The scopes of a membership value are those of the scope rows. -/
theorem scopesFromRecords_eq_some {ρ : Type} {read : ρ → Option MembershipResourceScope}
    {rows : List ρ} {scopes : List MembershipResourceScope}
    (hread : rows.mapM read = some scopes) (scope : MembershipResourceScope) :
    scope ∈ scopes ↔ ∃ row ∈ rows, read row = some scope := by
  induction rows generalizing scopes with
  | nil =>
      simp only [List.mapM_nil, Option.pure_def, Option.some.injEq] at hread
      subst hread
      simp
  | cons row rows ih =>
      simp only [List.mapM_cons, Option.bind_eq_bind, Option.bind_eq_some_iff,
        Option.pure_def, Option.some.injEq] at hread
      obtain ⟨first, hfirst, rest, hrest, rfl⟩ := hread
      simp only [List.mem_cons, ih hrest, exists_eq_or_imp, hfirst, Option.some.injEq]
      exact or_congr_left eq_comm

theorem membershipFromRecord_eq_some {row : OrganizationMembershipRecord}
    {scopes : List MembershipResourceScopeRecord} {membership : OrganizationMembership}
    (hread : membershipFromRecord row scopes = some membership) :
    membership.id = some row.id ∧ membership.actorId = row.userId ∧
      membership.organizationId = row.organizationId ∧ membership.role = row.role ∧
        ∀ scope, scope ∈ membership.resourceScopes.elements ↔
          ∃ stored ∈ scopes,
            scopeFromRecord stored.id stored.resource stored.action = some scope := by
  simp only [membershipFromRecord, Option.bind_eq_bind, Option.bind_eq_some_iff] at hread
  obtain ⟨parsed, hparsed, hmembership⟩ := hread
  cases hmembership
  refine ⟨rfl, rfl, rfl, rfl, fun scope => ?_⟩
  rw [FrozenSet.mem_of, scopesFromRecords_eq_some hparsed]

theorem SawTornMembership.row {history : ConsoleHistory} {actorId organizationId : UUID}
    {membership : OrganizationMembership}
    (hsaw : SawTornMembership history actorId organizationId membership) :
    ∃ row, SawMembership history row ∧ row.userId = actorId ∧
      row.organizationId = organizationId ∧ membership.id = some row.id ∧
        membership.role = row.role ∧ membership.actorId = row.userId ∧
          membership.organizationId = row.organizationId := by
  obtain ⟨first, hfirst, second, _, row, hrow, hread⟩ := hsaw
  obtain ⟨hmem, huser, horganization⟩ := membershipRow_eq_some hrow
  obtain ⟨hid, hactor, htenant, hrole, _⟩ := membershipFromRecord_eq_some hread
  exact ⟨row, ⟨first, hfirst, hmem⟩, huser, horganization, hid, hrole, hactor, htenant⟩

section Steps

variable {guard : ConsoleHistory → Action console → Prop} {history : ConsoleHistory}

theorem normalizeEmail_ensures (ports : Ports) (email : String) :
    (UseCase.normalizeEmail ports email).Ensures guard
      (fun after normalized =>
        after = history ∧ ports.normalizeEmail email = some normalized) history := by
  unfold UseCase.normalizeEmail
  split
  · rename_i normalized hnormalized
    exact Execution.ensures_pure ⟨rfl, hnormalized⟩
  · exact Execution.ensures_raise

theorem orValueError_ensures {α : Type} (result : Except String α) :
    (UseCase.orValueError result).Ensures guard
      (fun after value => after = history ∧ result = .ok value) history := by
  cases result with
  | ok value => exact Execution.ensures_pure ⟨rfl, rfl⟩
  | error message => exact Execution.ensures_raise

theorem orRaise_ensures {α : Type} (result : Except Failure α) :
    (UseCase.orRaise result).Ensures guard
      (fun after value => after = history ∧ result = .ok value) history := by
  cases result with
  | ok value => exact Execution.ensures_pure ⟨rfl, rfl⟩
  | error failure => exact Execution.ensures_raise

theorem getMembership_torn (actorId organizationId : UUID) :
    (UseCase.getMembership actorId organizationId).Ensures guard
      (fun after membership => Quiet history after ∧
        ∀ found, membership = some found →
          TornRead history actorId organizationId after found) history := by
  unfold UseCase.getMembership
  refine Execution.ensures_select.bind ?_
  rintro after row ⟨moment, first, rfl, hrow⟩
  cases row with
  | none =>
      refine Execution.ensures_pure ⟨Quiet.saw _ _ _, ?_⟩
      intro found hfound
      cases hfound
  | some row =>
      refine Execution.ensures_select.bind ?_
      rintro after scopes ⟨moment', second, rfl, rfl⟩
      refine Execution.ensures_pure ⟨(Quiet.saw _ _ _).trans (Quiet.saw _ _ _), ?_⟩
      intro found hfound
      exact ⟨moment, first, moment', second, row, List.append_assoc _ _ _, hrow.symm, hfound⟩

theorem getMembership_ensures (actorId organizationId : UUID) :
    (UseCase.getMembership actorId organizationId).Ensures guard
      (fun after membership => Quiet history after ∧
        ∀ found, membership = some found →
          SawTornMembership after actorId organizationId found) history :=
  (getMembership_torn actorId organizationId).mono fun _ _ hread =>
    ⟨hread.1, fun found hfound => (hread.2 found hfound).saw⟩

theorem authorize_torn (request : AuthorizationRequest) :
    (UseCase.authorize request).Ensures guard
      (fun after decision => Quiet history after ∧
        (decision.allowed = true → ∃ membership,
          TornRead history request.actorId request.organizationId after membership ∧
            membership.allows request = true)) history := by
  unfold UseCase.authorize
  refine (getMembership_torn _ _).bind ?_
  rintro after membership ⟨hquiet, htorn⟩
  cases membership with
  | none =>
      refine Execution.ensures_pure ⟨hquiet, ?_⟩
      intro hallowed
      cases hallowed
  | some found =>
      exact Execution.ensures_pure ⟨hquiet, fun hallowed => ⟨found, htorn found rfl, hallowed⟩⟩

theorem authorize_ensures (request : AuthorizationRequest) :
    (UseCase.authorize request).Ensures guard
      (fun after decision => Quiet history after ∧
        (decision.allowed = true → ∃ membership,
          SawTornMembership after request.actorId request.organizationId membership ∧
            membership.allows request = true)) history := by
  refine (authorize_torn request).mono ?_
  intro after decision hread
  refine ⟨hread.1, fun hallowed => ?_⟩
  obtain ⟨membership, htorn, hallows⟩ := hread.2 hallowed
  exact ⟨membership, htorn.saw, hallows⟩

/-- `require_actor_can_manage` returns the actor's torn membership. -/
theorem requireActorCanManage_ensures (actorId organizationId : UUID)
    (targetRole : OrganizationRole) :
    (UseCase.requireActorCanManage actorId organizationId targetRole).Ensures guard
      (fun after actor => Quiet history after ∧
        ∃ row, SawManager after actorId organizationId targetRole row ∧
          actor.role = row.role ∧ actor.actorId = actorId) history := by
  unfold UseCase.requireActorCanManage
  refine (getMembership_ensures _ _).bind ?_
  rintro after membership ⟨hquiet, hsaw⟩
  split
  · exact Execution.ensures_raise
  · rename_i actor
    split
    · exact Execution.ensures_raise
    · rename_i hmanage
      simp only [Bool.or_eq_true, Bool.not_eq_true', not_or, Bool.not_eq_false] at hmanage
      obtain ⟨row, hrow, huser, horganization, _, hrole, hactor, _⟩ := (hsaw actor rfl).row
      refine Execution.ensures_pure ⟨hquiet, row,
        ⟨hrow, huser, horganization, hrole ▸ hmanage.1, hrole ▸ hmanage.2⟩, hrole, ?_⟩
      rw [hactor, huser]

theorem rejectScopes_ensures (role : OrganizationRole)
    (scopes : List MembershipResourceScope) :
    (UseCase.rejectScopesNotSupportedByRole role scopes).Ensures guard
      (fun after _ => after = history ∧
        ∀ scope ∈ scopes, role.supportsScope scope = true) history := by
  unfold UseCase.rejectScopesNotSupportedByRole
  split
  · rename_i hempty
    refine Execution.ensures_pure ⟨rfl, ?_⟩
    simpa using hempty
  · exact Execution.ensures_raise

/-- Ports other than the platform writers may be called at any time. -/
theorem ask_ensures {ports : Ports} {request : Request} {call : Call}
    (hother : ∀ organizationId actorId externalResourceId update correlationId,
      call ≠ .updatePlatform organizationId actorId externalResourceId update correlationId) :
    (@Execution.ask console Failure call).Ensures (Justified ports request)
      (fun after answer => after = history ++ [.heard call answer]) history :=
  Execution.ensures_ask (Justified.call hother)

theorem newIdentifier_ensures :
    UseCase.newIdentifier.Ensures guard
      (fun after id => after = history ++ [.drew id]) history :=
  Execution.ensures_newName

/-- Copying scopes with identifiers keeps their resources and actions. -/
theorem scopesWithIds_ensures
    {identify : MembershipResourceScope → UseCase UUID}
    (hidentify : ∀ history scope,
      (identify scope).Ensures guard (fun after _ => Quiet history after) history)
    (scopes : List MembershipResourceScope) :
    (UseCase.scopesWithIds identify scopes).Ensures guard
      (fun after copies => Quiet history after ∧
        ∀ copy ∈ copies, ∃ scope ∈ scopes,
          copy.resource = scope.resource ∧ copy.action = scope.action) history := by
  induction scopes generalizing history with
  | nil => exact Execution.ensures_pure ⟨Quiet.refl _, by simp⟩
  | cons scope rest ih =>
      unfold UseCase.scopesWithIds
      refine (hidentify history scope).bind ?_
      intro after id hfirst
      refine ih.bind ?_
      rintro last copies ⟨hrest, hcopies⟩
      refine Execution.ensures_pure ⟨hfirst.trans hrest, ?_⟩
      intro copy hcopy
      rcases List.mem_cons.mp hcopy with rfl | hcopy
      · exact ⟨scope, List.mem_cons_self, rfl, rfl⟩
      · obtain ⟨source, hsource, hsame⟩ := hcopies copy hcopy
        exact ⟨source, List.mem_cons_of_mem _ hsource, hsame⟩

theorem assignScopeIds_ensures (scopes : List MembershipResourceScope) :
    (UseCase.assignScopeIds scopes).Ensures guard
      (fun after assigned => Quiet history after ∧
        ∀ copy ∈ assigned.elements, ∃ scope ∈ scopes,
          copy.resource = scope.resource ∧ copy.action = scope.action) history := by
  unfold UseCase.assignScopeIds
  refine (scopesWithIds_ensures ?_ scopes).bind ?_
  · intro history scope
    split
    · exact Execution.ensures_pure (Quiet.refl _)
    · exact newIdentifier_ensures.mono fun after id hafter => hafter ▸ Quiet.drew _ _
  · rintro after copies ⟨hquiet, hcopies⟩
    refine Execution.ensures_pure ⟨hquiet, ?_⟩
    intro copy hcopy
    exact hcopies copy (FrozenSet.mem_of.mp hcopy)

theorem freshScopeIds_ensures (scopes : FrozenSet MembershipResourceScope) :
    (UseCase.freshScopeIds scopes).Ensures guard
      (fun after assigned => Quiet history after ∧
        ∀ copy ∈ assigned.elements, ∃ scope ∈ scopes.elements,
          copy.resource = scope.resource ∧ copy.action = scope.action) history := by
  unfold UseCase.freshScopeIds
  refine (scopesWithIds_ensures ?_ scopes.elements).bind ?_
  · intro history scope
    exact newIdentifier_ensures.mono fun after id hafter => hafter ▸ Quiet.drew _ _
  · rintro after copies ⟨hquiet, hcopies⟩
    refine Execution.ensures_pure ⟨hquiet, ?_⟩
    intro copy hcopy
    exact hcopies copy (FrozenSet.mem_of.mp hcopy)

theorem createMemberAuditEvent_ensures (correlationId actorId organizationId : UUID)
    (action : String) (targetUserId : UUID)
    (named : action ≠ "" ∧ "organization_member" ≠ "") :
    (UseCase.createMemberAuditEvent correlationId actorId organizationId action targetUserId
      named).Ensures guard (fun after _ => Quiet history after) history := by
  unfold UseCase.createMemberAuditEvent
  refine newIdentifier_ensures.bind ?_
  rintro after id rfl
  exact Execution.ensures_pure (Quiet.drew _ _)

/-- The rows written for a set of scopes carry the scopes' texts. -/
theorem scopeRecords_eq_ok {ρ : Type} {row : UUID → MembershipResourceScope → ρ}
    {message : String} {scopes : List MembershipResourceScope} {records : List ρ}
    (hrecords : UseCase.scopeRecords row message scopes = .ok records) :
    ∀ record ∈ records, ∃ scope ∈ scopes, ∃ id, record = row id scope := by
  induction scopes generalizing records with
  | nil =>
      cases hrecords
      simp
  | cons scope rest ih =>
      unfold UseCase.scopeRecords at hrecords
      split at hrecords
      · cases hrecords
      · rename_i id hid
        cases hrest : UseCase.scopeRecords row message rest with
        | error text =>
            rw [hrest] at hrecords
            cases hrecords
        | ok others =>
            rw [hrest] at hrecords
            cases hrecords
            intro record hrecord
            rcases List.mem_cons.mp hrecord with rfl | hrecord
            · exact ⟨scope, List.mem_cons_self, id, rfl⟩
            · obtain ⟨source, hsource, hrow⟩ := ih hrest record hrecord
              exact ⟨source, List.mem_cons_of_mem _ hsource, hrow⟩

end Steps

end MuxivoConsole
