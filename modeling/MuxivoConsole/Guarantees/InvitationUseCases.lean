/-
The invitation use cases ask only for writes that they may ask for.
-/
import MuxivoConsole.Guarantees.MemberUseCases

namespace MuxivoConsole

open Interleaving

variable {ports : Ports} {history : ConsoleHistory}

theorem mem_invitationScopes {database : Database} {invitationId : UUID}
    {scope : OrganizationInvitationScopeRecord} :
    scope ∈ database.invitationScopes invitationId ↔
      scope ∈ database.tables.organizationInvitationScopes ∧
        scope.invitationId = invitationId := by
  simp [Database.invitationScopes]

theorem invitationFromRecords_eq_some {row : OrganizationInvitationRecord}
    {scopes : List OrganizationInvitationScopeRecord} {invitation : OrganizationInvitation}
    (hread : invitationFromRecords row scopes = some invitation) :
    invitation.fields.id = row.id ∧ invitation.fields.organizationId = row.organizationId ∧
      invitation.fields.role = row.role ∧
        invitation.fields.emailLookupHash = row.emailLookupHash ∧
          row.invitedByUserId = some invitation.fields.invitedByUserId ∧
          ∀ scope, scope ∈ invitation.fields.resourceScopes.elements ↔
            ∃ stored ∈ scopes,
              scopeFromRecord stored.id stored.resource stored.action = some scope := by
  simp only [invitationFromRecords, Option.bind_eq_bind, Option.bind_eq_some_iff] at hread
  obtain ⟨inviter, hinviter, parsed, hparsed, hmake⟩ := hread
  have hfields := Validated.make_toOption_eq_some.mp hmake
  rw [hfields]
  refine ⟨rfl, rfl, rfl, rfl, hinviter, fun scope => ?_⟩
  rw [FrozenSet.mem_of, scopesFromRecords_eq_some hparsed]

/-- An invitation put together from its row and, later, its scopes. -/
def SawTornInvitation (history : ConsoleHistory) (invitation : OrganizationInvitation) :
    Prop :=
  ∃ row, SawInvitation history row ∧ ∃ second ∈ recent history,
    invitationFromRecords row (second.store.invitationScopes row.id) = some invitation

theorem SawTornInvitation.mono {before after : ConsoleHistory}
    {invitation : OrganizationInvitation} (hsaw : SawTornInvitation before invitation)
    (hquiet : Quiet before after) : SawTornInvitation after invitation := by
  obtain ⟨row, hrow, second, hsecond, hread⟩ := hsaw
  exact ⟨row, hrow.mono hquiet, second, hquiet.recent hsecond, hread⟩

theorem readInvitationScopes_ensures {guard : ConsoleHistory → Action console → Prop}
    {row : Option OrganizationInvitationRecord}
    (hrow : ∀ found, row = some found → SawInvitation history found) :
    (UseCase.readInvitationScopes row).Ensures guard
      (fun after invitation => Quiet history after ∧
        ∀ found, invitation = some found → SawTornInvitation after found) history := by
  unfold UseCase.readInvitationScopes
  split
  · refine Execution.ensures_pure ⟨Quiet.refl _, ?_⟩
    intro found hfound
    cases hfound
  · rename_i invitation
    refine Execution.ensures_select.bind ?_
    rintro after scopes ⟨moment, world, rfl, rfl⟩
    refine Execution.ensures_pure ⟨Quiet.saw _ _ _, ?_⟩
    intro found hfound
    exact ⟨invitation, (hrow invitation rfl).mono (Quiet.saw _ _ _), world,
      mem_recent_saw _ _ _, hfound⟩

theorem findInvitationForOrganization_ensures
    {guard : ConsoleHistory → Action console → Prop} (organizationId invitationId : UUID) :
    (UseCase.findInvitationForOrganization organizationId invitationId).Ensures guard
      (fun after invitation => Quiet history after ∧
        ∀ found, invitation = some found → SawTornInvitation after found) history := by
  unfold UseCase.findInvitationForOrganization
  refine Execution.ensures_select.bind ?_
  rintro after row ⟨moment, world, rfl, hrow⟩
  refine (readInvitationScopes_ensures ?_).mono ?_
  · intro found hfound
    rw [hfound] at hrow
    exact ⟨world, mem_recent_saw _ _ _, List.mem_of_find?_eq_some hrow.symm⟩
  · intro last invitation hlast
    exact ⟨(Quiet.saw _ _ _).trans hlast.1, hlast.2⟩

theorem findPendingByTokenHash_ensures {guard : ConsoleHistory → Action console → Prop}
    (tokenHash : String) (now : Instant) :
    (UseCase.findPendingByTokenHash tokenHash now).Ensures guard
      (fun after invitation => Quiet history after ∧
        ∀ found, invitation = some found → SawTornInvitation after found) history := by
  unfold UseCase.findPendingByTokenHash
  refine Execution.ensures_select.bind ?_
  rintro after row ⟨moment, world, rfl, hrow⟩
  refine (readInvitationScopes_ensures ?_).mono ?_
  · intro found hfound
    rw [hfound] at hrow
    exact ⟨world, mem_recent_saw _ _ _, List.mem_of_find?_eq_some hrow.symm⟩
  · intro last invitation hlast
    exact ⟨(Quiet.saw _ _ _).trans hlast.1, hlast.2⟩

/-- The invitation's row is written with rows for its scopes. -/
theorem createInvitation_ensures {guard : ConsoleHistory → Action console → Prop}
    {invitation : OrganizationInvitation} {auditEvent : AuditEvent}
    (hguard : ∀ (row : OrganizationInvitationRecord) scopes message,
      row.id = invitation.fields.id →
      row.organizationId = invitation.fields.organizationId →
      row.invitedByUserId = some invitation.fields.invitedByUserId →
      row.emailLookupHash = invitation.fields.emailLookupHash →
      row.role = invitation.fields.role →
      row.acceptedAt = none ∧ row.revokedAt = none →
      UseCase.scopeRecords (UseCase.invitationScopeRecord invitation.fields.id) message
          invitation.fields.resourceScopes.elements = .ok scopes →
        guard history (.commit (Write.createInvitation row scopes auditEvent))) :
    (UseCase.createInvitation invitation auditEvent).Ensures guard (fun _ _ => True)
      history := by
  unfold UseCase.createInvitation
  refine (orValueError_ensures _).bind ?_
  rintro after scopes ⟨rfl, hscopes⟩
  refine (Execution.ensures_save ?_).mono fun _ _ _ => trivial
  exact hguard _ scopes _ rfl rfl rfl rfl rfl ⟨rfl, rfl⟩ hscopes

theorem inviteOrganizationMember_ensures (command : InviteOrganizationMemberCommand) :
    (UseCase.inviteOrganizationMember ports command).Ensures
      (Justified ports (.inviteOrganizationMember command)) (fun _ _ => True) history := by
  unfold UseCase.inviteOrganizationMember
  refine (normalizeEmail_ensures ports _).bind ?_
  rintro after₁ normalized ⟨_, hnormalized⟩
  refine Execution.ensures_select.bind ?_
  rintro after₂ organization -
  refine (getMembership_ensures _ _).bind ?_
  rintro after₃ actor ⟨_, hactor⟩
  split
  · rename_i organization actor
    obtain ⟨row, hrow, huser, horganization, _, hrole, _⟩ := (hactor actor rfl).row
    split
    · exact Execution.ensures_raise
    · rename_i hmanage
      simp only [Bool.or_eq_true, Bool.not_eq_true', not_or, Bool.not_eq_false] at hmanage
      split
      · exact Execution.ensures_raise
      · rename_i hscopes
        have hsupported : ∀ scope ∈ command.resourceScopes,
            command.role.supportsScope scope = true := by
          simpa using hscopes
        refine (ask_ensures (by simp)).bind ?_
        rintro after₄ rawToken rfl
        refine (ask_ensures (by simp)).bind ?_
        rintro after₅ instant rfl
        refine newIdentifier_ensures.bind ?_
        rintro after₆ id rfl
        refine (orRaise_ensures _).bind ?_
        rintro after₇ emailHint ⟨rfl, _⟩
        refine (ask_ensures (by simp)).bind ?_
        rintro after₈ ciphertext rfl
        refine (assignScopeIds_ensures _).bind ?_
        rintro after₉ resourceScopes ⟨hassigned, hcopies⟩
        refine (orValueError_ensures _).bind ?_
        rintro after₁₀ invitation ⟨rfl, hmake⟩
        have hinvitation := Validated.make_eq_ok.mp hmake
        refine newIdentifier_ensures.bind ?_
        rintro after₁₁ auditId rfl
        have hsince := (Quiet.heard after₃ _ _).trans ((Quiet.heard _ _ _).trans
          ((Quiet.drew _ _).trans ((Quiet.heard _ _ _).trans
            (hassigned.trans (@Quiet.drew console _ auditId)))))
        refine (createInvitation_ensures ?_).bind ?_
        · intro stored scopes message _ hstoredOrganization hinviter hhash hstoredRole hopen
            hrecords
          rw [hinvitation] at hstoredOrganization hinviter hhash hstoredRole
          refine Justified.invite ⟨hstoredOrganization, hinviter, hstoredRole, hopen,
            ⟨normalized, hnormalized, hhash⟩,
            ⟨row, hrow.mono hsince, huser, horganization, hrole ▸ hmanage.1,
              hrole ▸ hmanage.2⟩, ?_⟩
          intro record hrecord
          obtain ⟨copy, hcopy, scopeId, rfl⟩ := scopeRecords_eq_ok hrecords record hrecord
          rw [hinvitation] at hcopy
          obtain ⟨scope, hscope, hresource, haction⟩ := hcopies copy hcopy
          refine ⟨by simp [UseCase.invitationScopeRecord, *], ?_⟩
          rw [UseCase.invitationScopeRecord, OrganizationRole.supportsStored_value, hresource,
            haction]
          exact hsupported scope hscope
        · intro after₁₂ created _
          split
          · exact Execution.ensures_raise
          · refine (ask_ensures (by simp)).bind ?_
            intro after₁₃ delivered _
            refine (Execution.ensures_save Justified.deliver).bind ?_
            intro after₁₄ persisted _
            exact Execution.ensures_pure trivial
  · exact Execution.ensures_raise

/-- `accept` is asked for with the rows of the new membership. -/
theorem acceptInvitation_ensures {guard : ConsoleHistory → Action console → Prop}
    {invitation : OrganizationInvitation} {membership : OrganizationMembership} {id : UUID}
    (hid : membership.id = some id) {acceptedAt : Instant} {auditEvent : AuditEvent}
    (hguard : ∀ scopes message,
      UseCase.scopeRecords (UseCase.membershipScopeRecord id) message
          membership.resourceScopes.elements = .ok scopes →
        guard history (.commit (Write.acceptInvitation invitation.fields.id
          invitation.fields.organizationId
          ⟨id, membership.organizationId, membership.actorId, membership.role⟩ scopes
          acceptedAt auditEvent))) :
    (UseCase.acceptInvitation invitation membership acceptedAt auditEvent).Ensures guard
      (fun _ _ => True) history := by
  unfold UseCase.acceptInvitation
  rw [hid]
  refine (orValueError_ensures _).bind ?_
  rintro after scopes ⟨rfl, hscopes⟩
  exact (Execution.ensures_save (hguard scopes _ hscopes)).mono fun _ _ _ => trivial

theorem acceptOrganizationInvitation_ensures
    (command : AcceptOrganizationInvitationCommand) :
    (UseCase.acceptOrganizationInvitation ports command).Ensures
      (Justified ports (.acceptOrganizationInvitation command)) (fun _ _ => True)
      history := by
  unfold UseCase.acceptOrganizationInvitation
  split
  · exact Execution.ensures_raise
  · refine (ask_ensures (by simp)).bind ?_
    rintro after₁ instant -
    refine (findPendingByTokenHash_ensures _ _).bind ?_
    rintro after₂ invitation ⟨_, hinvitation⟩
    split
    · exact Execution.ensures_raise
    · rename_i invitation
      obtain ⟨row, hrow, second, hsecond, hread⟩ := hinvitation invitation rfl
      obtain ⟨hid, horganization, hrole, hhash, hinviter, hscopes⟩ :=
        invitationFromRecords_eq_some hread
      split
      · exact Execution.ensures_raise
      · refine Execution.ensures_select.bind ?_
        rintro after₃ invitedUserId ⟨moment, world, rfl, huser⟩
        split
        · exact Execution.ensures_raise
        · rename_i hinvited
          simp only [ne_eq, not_not] at hinvited
          refine Execution.ensures_select.bind ?_
          rintro after₄ status ⟨moment', world', rfl, _⟩
          split
          · exact Execution.ensures_raise
          · refine (getMembership_ensures _ _).bind ?_
            rintro after₅ existing ⟨hexisting, _⟩
            split
            · exact Execution.ensures_raise
            · refine newIdentifier_ensures.bind ?_
              rintro after₆ membershipId rfl
              refine (freshScopeIds_ensures _).bind ?_
              rintro after₇ resourceScopes ⟨hfresh, hcopies⟩
              refine newIdentifier_ensures.bind ?_
              rintro after₈ auditId rfl
              have hlast := hfresh.trans (@Quiet.drew console _ auditId)
              have hasked := (Quiet.saw _ moment' world').trans
                (hexisting.trans ((Quiet.drew _ membershipId).trans hlast))
              have hsince := (Quiet.saw after₂ moment world).trans hasked
              have hheld := hlast.held (@mem_held_drew console _ membershipId)
              refine (acceptInvitation_ensures rfl ?_).bind ?_
              · intro records message hrecords
                rw [hid, horganization]
                refine Justified.accept ⟨hrow.mono hsince, rfl, rfl, hrole, ⟨_, hinviter⟩, hheld,
                  ⟨world, hasked.recent (mem_recent_saw _ _ _), ?_⟩, ?_⟩
                · rw [← hhash, ← huser, hinvited]
                · intro record hrecord
                  obtain ⟨copy, hcopy, scopeId, rfl⟩ :=
                    scopeRecords_eq_ok hrecords record hrecord
                  obtain ⟨scope, hscope, hresource, haction⟩ := hcopies copy hcopy
                  obtain ⟨stored, hstored, hparsed⟩ := (hscopes scope).mp hscope
                  obtain ⟨htextResource, htextAction, _⟩ := scopeFromRecord_eq_some.mp hparsed
                  obtain ⟨hmem, howner⟩ := mem_invitationScopes.mp hstored
                  refine ⟨rfl, stored, ⟨second, hsince.recent hsecond, hmem⟩, howner, ?_, ?_⟩
                  · rw [UseCase.membershipScopeRecord, hresource, htextResource]
                  · rw [UseCase.membershipScopeRecord, haction, htextAction]
              · intro after₉ accepted _
                split
                · exact Execution.ensures_raise
                · exact Execution.ensures_pure trivial

theorem revokeOrganizationInvitation_ensures
    (command : RevokeOrganizationInvitationCommand) :
    (UseCase.revokeOrganizationInvitation command).Ensures
      (Justified ports (.revokeOrganizationInvitation command)) (fun _ _ => True)
      history := by
  unfold UseCase.revokeOrganizationInvitation
  refine (getMembership_ensures _ _).bind ?_
  rintro after₁ actor -
  refine (findInvitationForOrganization_ensures _ _).bind ?_
  rintro after₂ invitation -
  split
  · split
    · exact Execution.ensures_raise
    · refine (ask_ensures (by simp)).bind ?_
      rintro after₃ instant -
      split
      · exact Execution.ensures_raise
      · refine (ask_ensures (by simp)).bind ?_
        rintro after₄ revokedAt -
        refine newIdentifier_ensures.bind ?_
        rintro after₅ auditId -
        refine (Execution.ensures_save Justified.revokeInvitation).bind ?_
        rintro after₆ revoked -
        split
        · exact Execution.ensures_raise
        · exact Execution.ensures_pure trivial
  · exact Execution.ensures_raise

end MuxivoConsole
