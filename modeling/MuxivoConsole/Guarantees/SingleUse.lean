/-
One use of an invitation.  Acceptance, revocation and delivery race for one row;
the conditional updates let one of the first two win, and only before the row
expires.  What the reader selects as pending is what the domain calls pending.
-/
import MuxivoConsole.Guarantees.Evolution

namespace MuxivoConsole

open Interleaving Relational

/-- Not both accepted and revoked, and accepted only before the expiry. -/
structure OrganizationInvitationRecord.SingleUse (row : OrganizationInvitationRecord) :
    Prop where
  exclusive : row.acceptedAt = none ∨ row.revokedAt = none
  timely : ∀ acceptedAt ∈ row.acceptedAt, acceptedAt < row.expiresAt

/-- The commit makes a membership out of this invitation. -/
def acceptsInvitation (invitationId : UUID) (commit : ConsoleCommit) : Bool :=
  match commit.write with
  | .acceptInvitation acceptedId .. => acceptedId == invitationId
  | _ => false

/-- The invitation is stored as accepted. -/
def Accepted (invitationId : UUID) (database : Database) : Prop :=
  ∃ row ∈ database.tables.organizationInvitations, row.id = invitationId ∧
    row.acceptedAt ≠ none

section Rows

variable {write : Write} {row : OrganizationInvitationRecord}

/-- No transaction makes a second use of an invitation. -/
theorem rewriteInvitation_singleUse (hsingle : row.SingleUse) :
    (write.rewriteInvitation row).SingleUse := by
  unfold Write.rewriteInvitation
  split
  · split
    · exact ⟨hsingle.exclusive, hsingle.timely⟩
    · exact hsingle
  · split
    · rename_i hopen
      obtain ⟨_, _, _, hrevoked, hearly⟩ := OrganizationInvitationRecord.openAt_iff.mp hopen
      refine ⟨Or.inr hrevoked, ?_⟩
      intro acceptedAt haccepted
      cases haccepted
      exact hearly
    · exact hsingle
  · split
    · rename_i hopen
      obtain ⟨_, _, haccepted, _, _⟩ := OrganizationInvitationRecord.openAt_iff.mp hopen
      refine ⟨Or.inl haccepted, ?_⟩
      intro acceptedAt hsome
      rw [haccepted] at hsome
      cases hsome
    · exact hsingle
  · exact hsingle

/-- An accepted invitation stays accepted. -/
theorem rewriteInvitation_accepted (haccepted : row.acceptedAt ≠ none) :
    (write.rewriteInvitation row).acceptedAt ≠ none := by
  unfold Write.rewriteInvitation
  split
  · split <;> exact haccepted
  · split
    · exact Option.some_ne_none _
    · exact haccepted
  · split <;> exact haccepted
  · exact haccepted

end Rows

section Commits

variable {write : Write} {database after : Database} {invitationId : UUID}

theorem Accepted.kept (haccepted : Accepted invitationId database)
    (happly : write.apply database = some after) : Accepted invitationId after := by
  obtain ⟨row, hrow, hid, hsome⟩ := haccepted
  refine ⟨write.rewriteInvitation row, ?_, ?_, rewriteInvitation_accepted hsome⟩
  · exact Write.rewriteInvitation_mem (Write.apply_eq_some.mp happly) hrow
  · rw [Write.rewriteInvitation_id, hid]

/-- The write that accepts an invitation finds it unaccepted. -/
theorem acceptInvitation_uses {organizationId : UUID}
    {membership : OrganizationMembershipRecord} {scopes : List MembershipResourceScopeRecord}
    {acceptedAt : Instant} {auditEvent : AuditEvent}
    (happly : (Write.acceptInvitation invitationId organizationId membership scopes acceptedAt
      auditEvent).apply database = some after) :
    ¬ Accepted invitationId database ∧ Accepted invitationId after := by
  have hstatements := Write.apply_eq_some.mp happly
  have hcount : rowcount (·.openAt invitationId organizationId acceptedAt)
      database.tables.organizationInvitations = 1 := by
    by_contra hcount
    simp [Write.statements, hcount] at hstatements
  obtain ⟨row, hrow, hopen⟩ := exists_of_rowcount_eq_one hcount
  obtain ⟨hid, _, hnone, _, _⟩ := OrganizationInvitationRecord.openAt_iff.mp hopen
  constructor
  · rintro ⟨other, hother, hotherId, hsome⟩
    have hsame : other = row :=
      database.constraints.invitationId.eq hother hrow (hotherId.trans hid.symm)
    exact hsome (hsame ▸ hnone)
  · refine ⟨_, Write.rewriteInvitation_mem hstatements hrow, ?_, ?_⟩
    · rw [Write.rewriteInvitation_id, hid]
    · simp [Write.rewriteInvitation, hopen]

/-- A new invitation is open. -/
theorem createdInvitations_singleUse {ports : Ports} {request : Request}
    {history : ConsoleHistory} (hjustified : Justified ports request history (.commit write)) :
    ∀ row ∈ write.createdInvitations, row.SingleUse := by
  intro row hrow
  cases hjustified with
  | invite hmay =>
      rw [List.mem_singleton.mp hrow]
      refine ⟨Or.inl hmay.pending.1, ?_⟩
      intro acceptedAt hsome
      rw [hmay.pending.1] at hsome
      cases hsome
  | _ => cases hrow

end Commits

/-- Run rule: an invitation that is not single-use was not when the run began. -/
theorem singleUse_after (ports : Ports) (database : Database) (choices : List ConsoleChoice) :
    ∀ row ∈ (database.after ports choices).world.store.tables.organizationInvitations,
      row.SingleUse ∨ ∃ old ∈ database.tables.organizationInvitations,
        old.id = row.id ∧ ¬ old.SingleUse := by
  induction choices using List.reverseRecOn with
  | nil =>
      intro row hrow
      by_cases hsingle : row.SingleUse
      · exact Or.inl hsingle
      · exact Or.inr ⟨row, hrow, rfl, hsingle⟩
  | append_singleton choices choice ih =>
      rw [Database.after_snoc]
      cases hcommit : (database.after ports choices).commit? choice with
      | none =>
          rw [System.step_store_of_no_commit hcommit]
          exact ih
      | some commit =>
          rw [System.step_store_of_commit hcommit]
          have hjustified := (console_holds ports database choices).guard_commit hcommit
          obtain ⟨_, _, happly⟩ := System.commit?_eq_some hcommit
          intro row hrow
          rw [Write.organizationInvitations_eq (Write.apply_eq_some.mp happly)] at hrow
          rcases List.mem_append.mp hrow with hold | hnew
          · obtain ⟨earlier, hearlier, rfl⟩ := List.mem_map.mp hold
            rcases ih earlier hearlier with hsingle | ⟨old, hmem, hid, hnot⟩
            · exact Or.inl (rewriteInvitation_singleUse hsingle)
            · exact Or.inr ⟨old, hmem, by rw [hid, Write.rewriteInvitation_id], hnot⟩
          · exact Or.inl (createdInvitations_singleUse hjustified row hnew)

/-- Run rule: an invitation makes one membership at most. -/
theorem accepted_at_most_once (ports : Ports) (database : Database)
    (choices : List ConsoleChoice) (invitationId : UUID) :
    (database.idle.commits (Request.program ports) choices).countP
      (acceptsInvitation invitationId) ≤ 1 := by
  refine (@System.countP_commits_le_one console _ _ _ _ (Request.program ports)
    (Accepted invitationId) _ database.idle choices
    ?_ ?_).1
  · intro before choice commit hcommit haccepted
    exact haccepted.kept (System.commit?_eq_some hcommit).2.2
  · intro before choice commit hcommit hkind
    obtain ⟨_, _, happly⟩ := System.commit?_eq_some hcommit
    unfold acceptsInvitation at hkind
    split at hkind
    · rename_i hwrite
      rw [beq_iff_eq] at hkind
      rw [hwrite, hkind] at happly
      exact acceptInvitation_uses happly
    · cases hkind

/-- An `accept` or a `revoke` that reads `False` changes nothing. -/
theorem refused_unchanged {database : Database} {transaction : Transaction} {write : Write}
    (hrun : transaction.run database = match write.apply database with
      | some after => (after, true)
      | none => (database, false))
    (hrefused : (transaction.run database).2 = false) :
    (transaction.run database).1 = database := by
  cases happly : write.apply database with
  | none => rw [hrun, happly]
  | some after =>
      rw [hrun, happly] at hrefused
      cases hrefused

/-- The stored row is pending exactly when the reader selects it by its token. -/
theorem pending_iff_selected {database : Database} {row : OrganizationInvitationRecord}
    (hrow : row ∈ database.tables.organizationInvitations)
    {scopes : List OrganizationInvitationScopeRecord} {invitation : OrganizationInvitation}
    (hread : invitationFromRecords row scopes = some invitation) (now : Instant) :
    invitation.fields.statusAt now = .pending ↔
      database.pendingInvitationRow row.tokenHash now = some row := by
  obtain ⟨haccepted, hrevoked, hexpires⟩ : invitation.fields.acceptedAt = row.acceptedAt ∧
      invitation.fields.revokedAt = row.revokedAt ∧
        invitation.fields.expiresAt = row.expiresAt := by
    simp only [invitationFromRecords, Option.bind_eq_bind, Option.bind_eq_some_iff] at hread
    obtain ⟨inviterId, _, scopes', _, hmake⟩ := hread
    rw [Validated.make_toOption_eq_some.mp hmake]
    exact ⟨rfl, rfl, rfl⟩
  have hpending : invitation.fields.statusAt now = .pending ↔
      row.acceptedAt = none ∧ row.revokedAt = none ∧ now < row.expiresAt := by
    rw [← haccepted, ← hrevoked, ← hexpires, OrganizationInvitationFields.statusAt]
    split
    · rename_i hsome
      simp [Option.isSome_iff_ne_none.mp hsome]
    · split
      · rename_i hsome
        simp [Option.isSome_iff_ne_none.mp hsome]
      · rename_i hnot hnot'
        have hnone := Option.not_isSome_iff_eq_none.mp hnot
        have hnone' := Option.not_isSome_iff_eq_none.mp hnot'
        simp [hnone, hnone']
  rw [hpending, Database.pendingInvitationRow]
  constructor
  · rintro ⟨hnone, hnone', hearly⟩
    refine find?_eq_some database.constraints.invitationTokenHash hrow
      (by simp [hnone, hnone', hearly]) ?_
    intro other _ hselected
    simp only [Bool.and_eq_true, beq_iff_eq] at hselected
    exact hselected.1.1.1
  · intro hfound
    have hselected := List.find?_some hfound
    simp only [Bool.and_eq_true, beq_iff_eq, Option.isNone_iff_eq_none,
      decide_eq_true_eq] at hselected
    exact ⟨hselected.1.1.2, hselected.1.2, hselected.2⟩

/-- In every run, whatever the clock reads: an invitation makes one membership
at most; none becomes both accepted and revoked or is accepted too late; a
writer that reads `False` has changed nothing; and the stored status is pending
exactly when the reader selects the row. -/
theorem invitation_single_use (ports : Ports) (database : Database)
    (choices : List ConsoleChoice) :
    (∀ invitationId, (database.idle.commits (Request.program ports) choices).countP
        (acceptsInvitation invitationId) ≤ 1) ∧
      (∀ row ∈ (database.after ports choices).world.store.tables.organizationInvitations,
        row.SingleUse ∨ ∃ old ∈ database.tables.organizationInvitations,
          old.id = row.id ∧ ¬ old.SingleUse) ∧
        (∀ invitationId organizationId now auditEvent,
          (∀ membership scopes,
            ((Transaction.acceptInvitation invitationId organizationId membership scopes now
                auditEvent).run (database.after ports choices).world.store).2 = false →
              ((Transaction.acceptInvitation invitationId organizationId membership scopes now
                auditEvent).run (database.after ports choices).world.store).1 =
                  (database.after ports choices).world.store) ∧
            (((Transaction.revokeInvitation invitationId organizationId now auditEvent).run
                (database.after ports choices).world.store).2 = false →
              ((Transaction.revokeInvitation invitationId organizationId now auditEvent).run
                (database.after ports choices).world.store).1 =
                  (database.after ports choices).world.store)) ∧
          ∀ row ∈ (database.after ports choices).world.store.tables.organizationInvitations,
            ∀ scopes invitation, invitationFromRecords row scopes = some invitation →
              ∀ now, invitation.fields.statusAt now = .pending ↔
                (database.after ports choices).world.store.pendingInvitationRow row.tokenHash
                  now = some row := by
  refine ⟨accepted_at_most_once ports database choices, singleUse_after ports database choices,
    ?_, ?_⟩
  · intro invitationId organizationId now auditEvent
    constructor
    · intro membership scopes hrefused
      exact refused_unchanged (Transaction.run_acceptInvitation _ membership scopes auditEvent)
        hrefused
    · intro hrefused
      exact refused_unchanged (Transaction.run_revokeInvitation _ auditEvent) hrefused
  · intro row hrow scopes invitation hread now
    exact pending_iff_selected hrow hread now

end MuxivoConsole
