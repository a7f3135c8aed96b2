/-
Every use case on accounts, organizations, members and invitations asks only
for writes that it may ask for, given what it has read.
-/
import MuxivoConsole.Guarantees.Reads

namespace MuxivoConsole

open Interleaving

variable {ports : Ports} {history : ConsoleHistory}

/-- Scope rows made from the scopes of a role fit the role. -/
theorem scopesFit_of_records {membershipId : UUID} {role : OrganizationRole}
    {message : String} {scopes : List MembershipResourceScope}
    {records : List MembershipResourceScopeRecord}
    (hrecords :
      UseCase.scopeRecords (UseCase.membershipScopeRecord membershipId) message scopes =
        .ok records)
    (hscopes : ∀ scope ∈ scopes, role.supportsPair scope.resource scope.action = true) :
    ScopesFit membershipId role records := by
  intro record hrecord
  obtain ⟨scope, hscope, id, rfl⟩ := scopeRecords_eq_ok hrecords record hrecord
  refine ⟨rfl, ?_⟩
  rw [UseCase.membershipScopeRecord, OrganizationRole.supportsStored_value]
  exact hscopes scope hscope

theorem completeEmailPasswordRegistration_ensures
    (command : CompleteEmailPasswordRegistrationCommand) :
    (UseCase.completeEmailPasswordRegistration ports command).Ensures
      (Justified ports (.completeEmailPasswordRegistration command)) (fun _ _ => True)
      history := by
  unfold UseCase.completeEmailPasswordRegistration
  refine (normalizeEmail_ensures ports _).bind ?_
  intro after₁ normalized _
  split
  · exact Execution.ensures_raise
  · refine newIdentifier_ensures.bind ?_
    intro after₂ userId _
    refine (orValueError_ensures _).bind ?_
    rintro after₃ user ⟨_, huser⟩
    refine newIdentifier_ensures.bind ?_
    intro after₄ identityId _
    refine (orValueError_ensures _).bind ?_
    intro after₅ identity _
    refine newIdentifier_ensures.bind ?_
    intro after₆ emailId _
    refine (ask_ensures (by simp)).bind ?_
    intro after₇ ciphertext _
    refine (orValueError_ensures _).bind ?_
    rintro after₈ email ⟨_, hemail⟩
    refine (orValueError_ensures _).bind ?_
    intro after₉ credential _
    refine (orValueError_ensures _).bind ?_
    rintro after₁₀ registration ⟨_, hregistration⟩
    refine newIdentifier_ensures.bind ?_
    intro after₁₁ auditId _
    have hrows : registration.fields.email.fields.userId =
        registration.fields.user.fields.id := by
      rw [Validated.make_eq_ok.mp hregistration]
      rw [Validated.make_eq_ok.mp huser, Validated.make_eq_ok.mp hemail]
    refine (Execution.ensures_save (Justified.register hrows)).bind ?_
    intro after₁₂ created _
    split
    · exact Execution.ensures_raise
    · exact Execution.ensures_pure trivial

theorem createOrganization_ensures (command : CreateOrganizationCommand) :
    (UseCase.createOrganization command).Ensures
      (Justified ports (.createOrganization command)) (fun _ _ => True) history := by
  unfold UseCase.createOrganization
  refine Execution.ensures_select.bind ?_
  intro after₁ status _
  split
  · exact Execution.ensures_raise
  · refine newIdentifier_ensures.bind ?_
    intro after₂ id _
    refine (ask_ensures (by simp)).bind ?_
    intro after₃ slug _
    refine (orValueError_ensures _).bind ?_
    intro after₄ organization _
    refine newIdentifier_ensures.bind ?_
    rintro after₅ membershipId rfl
    refine newIdentifier_ensures.bind ?_
    rintro after₆ auditId rfl
    refine (Execution.ensures_save (Justified.create ?_)).bind ?_
    · exact ⟨rfl, rfl, rfl, (Quiet.drew _ _).held (mem_held_drew _ _)⟩
    · intro after₇ created _
      split
      · exact Execution.ensures_raise
      · exact Execution.ensures_pure trivial

/-- `add_member` is asked for with the rows of the membership. -/
theorem addMember_ensures {guard : ConsoleHistory → Action console → Prop}
    {membership : OrganizationMembership} {id : UUID} (hid : membership.id = some id)
    {auditEvent : AuditEvent}
    (hguard : ∀ scopes message,
      UseCase.scopeRecords (UseCase.membershipScopeRecord id) message
          membership.resourceScopes.elements = .ok scopes →
        guard history (.commit (Write.addMember
          ⟨id, membership.organizationId, membership.actorId, membership.role⟩ scopes
          auditEvent))) :
    (UseCase.addMember membership auditEvent).Ensures guard (fun _ _ => True) history := by
  unfold UseCase.addMember
  rw [hid]
  refine (orValueError_ensures _).bind ?_
  rintro after scopes ⟨rfl, hscopes⟩
  exact (Execution.ensures_save (hguard scopes _ hscopes)).mono fun _ _ _ => trivial

/-- `update_member` is asked for with the key of the membership. -/
theorem updateMember_ensures {guard : ConsoleHistory → Action console → Prop}
    {membership : OrganizationMembership} {id : UUID} (hid : membership.id = some id)
    {auditEvent : AuditEvent}
    (hguard : ∀ scopes message,
      UseCase.scopeRecords (UseCase.membershipScopeRecord id) message
          membership.resourceScopes.elements = .ok scopes →
        guard history (.commit
          (Write.updateMember id membership.role scopes auditEvent))) :
    (UseCase.updateMember membership auditEvent).Ensures guard (fun _ _ => True) history := by
  unfold UseCase.updateMember
  rw [hid]
  refine (orValueError_ensures _).bind ?_
  rintro after scopes ⟨rfl, hscopes⟩
  exact (Execution.ensures_save (hguard scopes _ hscopes)).mono fun _ _ _ => trivial

theorem addOrganizationMember_ensures (command : AddOrganizationMemberCommand) :
    (UseCase.addOrganizationMember ports command).Ensures
      (Justified ports (.addOrganizationMember command)) (fun _ _ => True) history := by
  unfold UseCase.addOrganizationMember
  refine (normalizeEmail_ensures ports _).bind ?_
  intro after₁ normalized _
  refine (requireActorCanManage_ensures _ _ _).bind ?_
  rintro after₂ actor ⟨_, row, hmanager, _⟩
  refine (rejectScopes_ensures _ _).bind ?_
  rintro after₃ _ ⟨rfl, hsupported⟩
  refine Execution.ensures_select.bind ?_
  rintro after₄ targetUserId ⟨moment, world, rfl, _⟩
  split
  · exact Execution.ensures_raise
  · rename_i targetUserId
    refine Execution.ensures_select.bind ?_
    rintro after₅ status ⟨moment', world', rfl, _⟩
    split
    · exact Execution.ensures_raise
    · refine newIdentifier_ensures.bind ?_
      rintro after₆ id rfl
      refine (assignScopeIds_ensures _).bind ?_
      rintro after₇ resourceScopes ⟨hassigned, hcopies⟩
      refine (createMemberAuditEvent_ensures _ _ _ _ _ _).bind ?_
      intro after₈ auditEvent haudit
      have hsince := (Quiet.saw after₃ moment world).trans
        ((Quiet.saw _ moment' world').trans
          ((Quiet.drew _ id).trans (hassigned.trans haudit)))
      have hheld : id ∈ held after₈ :=
        (hassigned.trans haudit).held (@mem_held_drew console _ id)
      refine (addMember_ensures rfl ?_).bind ?_
      · intro scopes message hscopes
        refine Justified.add ⟨rfl, rfl, hheld,
          ⟨row, hmanager.1.mono hsince, hmanager.2⟩, ?_⟩
        refine scopesFit_of_records hscopes ?_
        intro copy hcopy
        obtain ⟨scope, hscope, hresource, haction⟩ := hcopies copy hcopy
        rw [hresource, haction]
        exact hsupported scope hscope
      · intro after₉ created _
        split
        · exact Execution.ensures_raise
        · exact Execution.ensures_pure trivial

theorem updateOrganizationMember_ensures (command : UpdateOrganizationMemberCommand) :
    (UseCase.updateOrganizationMember command).Ensures
      (Justified ports (.updateOrganizationMember command)) (fun _ _ => True) history := by
  unfold UseCase.updateOrganizationMember
  refine (requireActorCanManage_ensures _ _ _).bind ?_
  rintro after₁ actor ⟨_, row, hmanager, hrole, hactor⟩
  refine (rejectScopes_ensures _ _).bind ?_
  rintro after₂ _ ⟨rfl, hsupported⟩
  refine (getMembership_ensures _ _).bind ?_
  rintro after₃ target ⟨hread, htarget⟩
  split
  · exact Execution.ensures_raise
  · rename_i target
    obtain ⟨stored, hstored, huser, horganization, hid, htargetRole, htargetActor, _⟩ :=
      (htarget target rfl).row
    split
    · exact Execution.ensures_raise
    · rename_i hdeny
      simp only [hid, Option.isNone_some, Bool.false_or, Bool.or_eq_true, beq_iff_eq,
        Bool.not_eq_true', not_or, Bool.not_eq_false] at hdeny
      obtain ⟨hothers, hbelow⟩ := hdeny
      refine (assignScopeIds_ensures _).bind ?_
      rintro after₄ resourceScopes ⟨hassigned, hcopies⟩
      refine (createMemberAuditEvent_ensures _ _ _ _ _ _).bind ?_
      intro after₅ auditEvent haudit
      have hsince := hassigned.trans haudit
      refine (updateMember_ensures (by exact hid) ?_).bind ?_
      · intro scopes message hscopes
        refine Justified.update ⟨rfl, ?_, ?_, ?_⟩
        · intro hsame
          rw [htargetActor, huser, hactor] at hothers
          exact hothers hsame
        · refine ⟨row, stored, ⟨hmanager.1.mono (hread.trans hsince), hmanager.2⟩,
            hstored.mono hsince, rfl, huser, horganization, ?_⟩
          rw [← hrole, ← htargetRole]
          exact hbelow
        · refine scopesFit_of_records hscopes ?_
          intro copy hcopy
          obtain ⟨scope, hscope, hresource, haction⟩ := hcopies copy hcopy
          rw [hresource, haction]
          exact hsupported scope hscope
      · intro after₆ saved _
        split
        · exact Execution.ensures_raise
        · exact Execution.ensures_pure trivial

theorem removeOrganizationMember_ensures (command : RemoveOrganizationMemberCommand) :
    (UseCase.removeOrganizationMember command).Ensures
      (Justified ports (.removeOrganizationMember command)) (fun _ _ => True) history := by
  unfold UseCase.removeOrganizationMember
  refine (getMembership_ensures _ _).bind ?_
  rintro after₁ actor ⟨_, hactor⟩
  refine (getMembership_ensures _ _).bind ?_
  rintro after₂ target ⟨hread, htarget⟩
  split
  · rename_i actor targetActorId targetOrganizationId targetRole targetScopes targetId
    obtain ⟨actorRow, hactorRow, hactorUser, hactorOrganization, _, hactorRole,
      hactorActor, _⟩ := (hactor actor rfl).row
    obtain ⟨stored, hstored, huser, horganization, hid, htargetRole, htargetActor, _⟩ :=
      (htarget _ rfl).row
    split
    · exact Execution.ensures_raise
    · rename_i hdeny
      simp only [Bool.or_eq_true, beq_iff_eq, Bool.not_eq_true', not_or,
        Bool.not_eq_false] at hdeny
      obtain ⟨⟨hothers, hmanage⟩, hbelow⟩ := hdeny
      refine (createMemberAuditEvent_ensures _ _ _ _ _ _).bind ?_
      intro after₃ auditEvent haudit
      refine (Execution.ensures_save (Justified.remove ⟨?_, ?_⟩)).bind ?_
      · intro hsame
        simp only at htargetActor
        rw [htargetActor, huser, hactorActor, hactorUser] at hothers
        exact hothers hsame
      · refine ⟨actorRow, stored, hactorRow.mono (hread.trans haudit), hactorUser,
          hactorOrganization, hactorRole ▸ hmanage, hstored.mono haudit, ?_, huser,
          horganization, ?_⟩
        · simpa using hid.symm
        · simp only at htargetRole
          rw [← hactorRole, ← htargetRole]
          exact hbelow
      · intro after₄ removed _
        split
        · exact Execution.ensures_raise
        · exact Execution.ensures_pure trivial
  · exact Execution.ensures_raise

end MuxivoConsole
