/-
Who issues memberships, in runs of whole executions.  Adding and updating
members never concern the acting user, but an invitation may be addressed to
the e-mail of the user who issues it, and it outlives that user's membership.
-/
import MuxivoConsole.Guarantees.Evolution

namespace MuxivoConsole

open Interleaving Relational

/-- The memberships that are new in the second database, or changed in their
row or in their scopes. -/
def Database.touchedMemberships (before after : Database) :
    List OrganizationMembershipRecord :=
  after.tables.organizationMemberships.filter fun row =>
    decide (row ∉ before.tables.organizationMemberships ∨
      before.membershipScopes row.id ≠ after.membershipScopes row.id)

/-- Who issues a membership that is added, updated or accepted: the actor, or
the user who issued the stored invitation. -/
def Request.issuer (database : Database) : Request → Write → Option UUID
  | .addOrganizationMember command, .addMember .. => some command.actorId
  | .updateOrganizationMember command, .updateMember .. => some command.actorId
  | .acceptOrganizationInvitation _, .acceptInvitation invitationId .. =>
      (database.tables.organizationInvitations.find? (·.id == invitationId)).bind
        (·.invitedByUserId)
  | _, _ => none

/-- The write has an issuer, and it is not this user. -/
def Request.IssuedByAnother (database : Database) (request : Request) (write : Write)
    (userId : UUID) : Prop :=
  request.issuer database write ≠ none ∧ request.issuer database write ≠ some userId

instance (database : Database) (request : Request) (write : Write) (userId : UUID) :
    Decidable (request.IssuedByAnother database write userId) :=
  inferInstanceAs (Decidable (request.issuer database write ≠ none ∧
    request.issuer database write ≠ some userId))

/-- The initial owner row of the user who creates an organization. -/
def Request.InitialOwner (row : OrganizationMembershipRecord) : Request → Prop
  | .createOrganization command => row.role = .owner ∧ row.userId = command.actorId
  | _ => False

instance (row : OrganizationMembershipRecord) (request : Request) :
    Decidable (request.InitialOwner row) :=
  match request with
  | .createOrganization command =>
      inferInstanceAs (Decidable (row.role = .owner ∧ row.userId = command.actorId))
  | .completeEmailPasswordRegistration _ | .addOrganizationMember _
  | .updateOrganizationMember _ | .removeOrganizationMember _ | .inviteOrganizationMember _
  | .acceptOrganizationInvitation _ | .revokeOrganizationInvitation _ | .authorize _
  | .connectPlatformConnection _ | .managePlatformConnectionLifecycle _
  | .reconcilePlatformConnections _ | .updatePlatformAiModerationPolicy _
  | .updatePlatformChannelPurpose _ | .updatePlatformWelcomeSettings _ => isFalse id

/-- Every membership that the step creates or changes is the initial row of the
organization's creator or was issued by another user. -/
def IssuedByOthers (system : ConsoleSystem) (choice : ConsoleChoice) : Prop :=
  ∀ commit ∈ system.commit? choice,
    ∀ row ∈ system.world.store.touchedMemberships commit.after,
      commit.process.request.InitialOwner row ∨
        commit.process.request.IssuedByAnother system.world.store commit.write row.userId

instance (system : ConsoleSystem) (choice : ConsoleChoice) :
    Decidable (IssuedByOthers system choice) :=
  inferInstanceAs (Decidable (∀ commit ∈ system.commit? choice,
    ∀ row ∈ system.world.store.touchedMemberships commit.after,
      commit.process.request.InitialOwner row ∨
        commit.process.request.IssuedByAnother system.world.store commit.write row.userId))

/-- The invited address is stored as an e-mail of the acting user. -/
def OwnAddress (ports : Ports) (database : Database)
    (command : InviteOrganizationMemberCommand) : Prop :=
  ∃ email ∈ database.tables.userEmails, email.userId = command.actorId ∧
    (ports.normalizeEmail command.email).map ports.lookupHash = some email.emailLookupHash

instance (ports : Ports) (database : Database) (command : InviteOrganizationMemberCommand) :
    Decidable (OwnAddress ports database command) :=
  inferInstanceAs (Decidable (∃ email ∈ database.tables.userEmails,
    email.userId = command.actorId ∧
      (ports.normalizeEmail command.email).map ports.lookupHash =
        some email.emailLookupHash))

/-- The request invites an address of the acting user. -/
def Request.InvitesSelf (ports : Ports) (database : Database) : Request → Prop
  | .inviteOrganizationMember command => OwnAddress ports database command
  | _ => False

instance (ports : Ports) (database : Database) (request : Request) :
    Decidable (request.InvitesSelf ports database) :=
  match request with
  | .inviteOrganizationMember command =>
      inferInstanceAs (Decidable (OwnAddress ports database command))
  | .completeEmailPasswordRegistration _ | .createOrganization _ | .addOrganizationMember _
  | .updateOrganizationMember _ | .removeOrganizationMember _
  | .acceptOrganizationInvitation _ | .revokeOrganizationInvitation _ | .authorize _
  | .connectPlatformConnection _ | .managePlatformConnectionLifecycle _
  | .reconcilePlatformConnections _ | .updatePlatformAiModerationPolicy _
  | .updatePlatformChannelPurpose _ | .updatePlatformWelcomeSettings _ => isFalse id

/-- The step commits nothing for a request that invites its own actor. -/
def InvitesOthers (ports : Ports) (system : ConsoleSystem) (choice : ConsoleChoice) : Prop :=
  ∀ commit ∈ system.commit? choice,
    ¬ commit.process.request.InvitesSelf ports system.world.store

instance (ports : Ports) (system : ConsoleSystem) (choice : ConsoleChoice) :
    Decidable (InvitesOthers ports system choice) :=
  inferInstanceAs (Decidable (∀ commit ∈ system.commit? choice,
    ¬ commit.process.request.InvitesSelf ports system.world.store))

/-- No stored invitation is addressed to the user who issued it. -/
def NoSelfInvitation (database : Database) : Prop :=
  ∀ invitation ∈ database.tables.organizationInvitations,
    ∀ email ∈ database.tables.userEmails,
      email.emailLookupHash = invitation.emailLookupHash →
        invitation.invitedByUserId ≠ some email.userId

instance (database : Database) : Decidable (NoSelfInvitation database) :=
  inferInstanceAs (Decidable (∀ invitation ∈ database.tables.organizationInvitations,
    ∀ email ∈ database.tables.userEmails,
      email.emailLookupHash = invitation.emailLookupHash →
        invitation.invitedByUserId ≠ some email.userId))

section Touched

variable {before after : Database} {row : OrganizationMembershipRecord}

theorem mem_touchedMemberships :
    row ∈ before.touchedMemberships after ↔
      row ∈ after.tables.organizationMemberships ∧
        (row ∉ before.tables.organizationMemberships ∨
          before.membershipScopes row.id ≠ after.membershipScopes row.id) := by
  simp [Database.touchedMemberships]

/-- Scopes that are added for one membership are none of the others'. -/
theorem filter_added_scopes {kept added : List MembershipResourceScopeRecord}
    {id other : UUID} (hother : id ≠ other)
    (hadded : ∀ scope ∈ added, scope.membershipId = other) :
    (kept ++ added).filter (·.membershipId == id) = kept.filter (·.membershipId == id) := by
  have hnone : added.filter (·.membershipId == id) = [] := by
    rw [List.filter_eq_nil_iff]
    intro scope hscope
    rw [hadded scope hscope]
    simpa using hother.symm
  rw [List.filter_append, hnone, List.append_nil]

/-- Deleting the scopes of one membership leaves those of the others. -/
theorem filter_kept_scopes (scopes : List MembershipResourceScopeRecord) {id other : UUID}
    (hother : id ≠ other) :
    (scopes.filter (·.membershipId != other)).filter (·.membershipId == id) =
      scopes.filter (·.membershipId == id) := by
  rw [List.filter_filter]
  apply List.filter_congr
  intro scope _
  by_cases hid : scope.membershipId = id
  · simp [hid, hother]
  · simp [hid]

theorem touched_of_same
    (hrows : after.tables.organizationMemberships = before.tables.organizationMemberships)
    (hscopes : after.tables.membershipResourceScopes = before.tables.membershipResourceScopes) :
    row ∉ before.touchedMemberships after := by
  rw [mem_touchedMemberships]
  rintro ⟨hrow, hnew | hchanged⟩
  · exact hnew (hrows ▸ hrow)
  · apply hchanged
    rw [Database.membershipScopes, Database.membershipScopes, hscopes]

/-- A transaction that adds a membership with its scopes touches no other. -/
theorem touched_of_append {membership : OrganizationMembershipRecord}
    {added : List MembershipResourceScopeRecord}
    (hrows : after.tables.organizationMemberships =
      before.tables.organizationMemberships ++ [membership])
    (hscopes : after.tables.membershipResourceScopes =
      before.tables.membershipResourceScopes ++ added)
    (hadded : ∀ scope ∈ added, scope.membershipId = membership.id)
    (htouched : row ∈ before.touchedMemberships after) : row = membership := by
  obtain ⟨hrow, hdiffers⟩ := mem_touchedMemberships.mp htouched
  have hunique := after.constraints.membershipId
  rw [hrows] at hrow hunique
  rcases List.mem_append.mp hrow with hold | hnew
  · have hother := hunique.fresh hold
    rcases hdiffers with habsent | hchanged
    · exact absurd hold habsent
    · refine absurd ?_ hchanged
      rw [Database.membershipScopes, Database.membershipScopes, hscopes,
        filter_added_scopes hother hadded]
  · exact List.mem_singleton.mp hnew

/-- A transaction that changes a membership and replaces its scopes touches no
other. -/
theorem touched_of_update {membershipId : UUID}
    {change : OrganizationMembershipRecord → OrganizationMembershipRecord}
    {added : List MembershipResourceScopeRecord}
    (hrows : after.tables.organizationMemberships =
      update (fun row => row.id == membershipId) change before.tables.organizationMemberships)
    (hscopes : after.tables.membershipResourceScopes =
      before.tables.membershipResourceScopes.filter (·.membershipId != membershipId) ++ added)
    (hadded : ∀ scope ∈ added, scope.membershipId = membershipId)
    (htouched : row ∈ before.touchedMemberships after) :
    ∃ old ∈ before.tables.organizationMemberships, old.id = membershipId ∧
      row = change old := by
  obtain ⟨hrow, hdiffers⟩ := mem_touchedMemberships.mp htouched
  rw [hrows] at hrow
  rcases mem_update.mp hrow with ⟨hold, hother⟩ | ⟨old, hold, hid, hchange⟩
  · rcases hdiffers with habsent | hchanged
    · exact absurd hold habsent
    · have hid : row.id ≠ membershipId := by simpa using hother
      refine absurd ?_ hchanged
      rw [Database.membershipScopes, Database.membershipScopes, hscopes,
        filter_added_scopes hid hadded, filter_kept_scopes _ hid]
  · exact ⟨old, hold, by simpa using hid, hchange⟩

/-- A transaction that deletes a membership with its scopes touches no other. -/
theorem touched_of_remove {membershipId : UUID}
    (hrows : after.tables.organizationMemberships =
      before.tables.organizationMemberships.filter (·.id != membershipId))
    (hscopes : after.tables.membershipResourceScopes =
      before.tables.membershipResourceScopes.filter (·.membershipId != membershipId)) :
    row ∉ before.touchedMemberships after := by
  intro htouched
  obtain ⟨hrow, hdiffers⟩ := mem_touchedMemberships.mp htouched
  rw [hrows, List.mem_filter] at hrow
  rcases hdiffers with habsent | hchanged
  · exact habsent hrow.1
  · apply hchanged
    have hother : row.id ≠ membershipId := by simpa using hrow.2
    rw [Database.membershipScopes, Database.membershipScopes, hscopes,
      filter_kept_scopes _ hother]

end Touched

section Commits

variable {ports : Ports} {request : Request} {history : ConsoleHistory}
variable {write : Write} {database after : Database}

theorem Request.IssuedByAnother.of_issuer {issuer userId : UUID}
    (hissuer : request.issuer database write = some issuer) (hother : issuer ≠ userId) :
    request.IssuedByAnother database write userId := by
  rw [Request.IssuedByAnother, hissuer]
  exact ⟨Option.some_ne_none issuer, fun hself => hother (Option.some.inj hself)⟩

theorem activeUserIdByEmailLookupHash_eq_some {emailLookupHash : String} {userId : UUID}
    (hfound : database.activeUserIdByEmailLookupHash emailLookupHash = some userId) :
    ∃ email ∈ database.tables.userEmails, email.emailLookupHash = emailLookupHash ∧
      email.userId = userId := by
  simp only [Database.activeUserIdByEmailLookupHash, Option.bind_eq_bind,
    Option.bind_eq_some_iff, Option.pure_def, Option.some.injEq] at hfound
  obtain ⟨email, hemail, user, huser, rfl⟩ := hfound
  have hhash := List.find?_some hemail
  have hid := List.find?_some huser
  simp only [Bool.and_eq_true, beq_iff_eq] at hhash hid
  exact ⟨email, List.mem_of_find?_eq_some hemail, hhash, hid.1.symm⟩

/-- An added membership is not the actor's: the actor has one already. -/
theorem MayAdd.others {start : Database} {command : AddOrganizationMemberCommand}
    {membership : OrganizationMembershipRecord} {scopes : List MembershipResourceScopeRecord}
    (hmay : MayAdd command history membership scopes)
    (hreplays : Replays (I := console) start history database)
    (hrows : after.tables.organizationMemberships =
      database.tables.organizationMemberships ++ [membership]) :
    command.actorId ≠ membership.userId := by
  intro hself
  obtain ⟨actor, hsaw, huser, horganization, _⟩ := hmay.authority
  have hunique := after.constraints.organizationMembership
  rw [hrows] at hunique
  apply hunique.fresh (hsaw.stored hreplays)
  rw [horganization, hmay.organization, huser, hself]

/-- An accepted invitation was issued by another user, unless invitations to
their own issuers are stored. -/
theorem MayAccept.others {start : Database} {command : AcceptOrganizationInvitationCommand}
    {invitation : OrganizationInvitationRecord} {membership : OrganizationMembershipRecord}
    {scopes : List MembershipResourceScopeRecord}
    (hmay : MayAccept command history invitation membership scopes)
    (hreplays : Replays (I := console) start history database)
    (hstored : NoSelfInvitation database) :
    ∃ issuer, (database.tables.organizationInvitations.find? (·.id == invitation.id)).bind
      (·.invitedByUserId) = some issuer ∧ issuer ≠ membership.userId := by
  have hinvitation := hmay.saw.stored hreplays
  obtain ⟨inviterId, hinviter⟩ := hmay.inviter
  obtain ⟨world, hworld, hfound⟩ := hmay.email
  rw [hreplays.recent world hworld] at hfound
  obtain ⟨email, hemail, hhash, huser⟩ := activeUserIdByEmailLookupHash_eq_some hfound
  have hfind : database.tables.organizationInvitations.find? (·.id == invitation.id) =
      some invitation :=
    find?_eq_some database.constraints.invitationId hinvitation (by simp)
      fun other _ hid => by simpa using hid
  refine ⟨inviterId, by rw [hfind]; exact hinviter, ?_⟩
  intro hself
  apply hstored invitation hinvitation email hemail hhash
  rw [hinviter, hself, hmay.user, huser]

/-- Step rule: whoever commits alone issues memberships to others. -/
theorem commit_issued_by_others {start : Database}
    (hjustified : Justified ports request history (.commit write))
    (hreplays : Replays (I := console) start history database)
    (hstored : NoSelfInvitation database) (happly : write.apply database = some after) :
    ∀ row ∈ database.touchedMemberships after, request.InitialOwner row ∨
      request.IssuedByAnother database write row.userId := by
  have hstatements := Write.apply_eq_some.mp happly
  intro row htouched
  cases hjustified with
  | create hmay =>
      simp only [Write.statements, Option.some.injEq] at hstatements
      have hrow := touched_of_append (congrArg Tables.organizationMemberships hstatements).symm
        ((congrArg Tables.membershipResourceScopes hstatements).symm.trans
          (List.append_nil _).symm) (fun _ hscope => absurd hscope List.not_mem_nil) htouched
      rw [hrow]
      exact Or.inl ⟨hmay.role, hmay.user⟩
  | add hmay =>
      simp only [Write.statements, Option.some.injEq] at hstatements
      have hrows := (congrArg Tables.organizationMemberships hstatements).symm
      have hrow := touched_of_append hrows
        (congrArg Tables.membershipResourceScopes hstatements).symm
        (fun scope hscope => (hmay.scopes scope hscope).1) htouched
      rw [hrow]
      exact Or.inr (.of_issuer rfl (hmay.others hreplays hrows))
  | update hmay =>
      obtain ⟨actor, target, _, htarget⟩ := hmay.authority
      simp only [Write.statements, Option.ite_none_left_eq_some,
        Option.some.injEq] at hstatements
      have hscopes := (congrArg Tables.membershipResourceScopes hstatements.2).symm
      obtain ⟨old, hold, hid, rfl⟩ := touched_of_update
        (congrArg Tables.organizationMemberships hstatements.2).symm hscopes
        (fun scope hscope => (hmay.scopes scope hscope).1) htouched
      have hsame : old = target := database.constraints.membershipId.eq hold
        (htarget.saw.stored hreplays) (hid.trans htarget.id.symm)
      refine Or.inr (.of_issuer rfl ?_)
      rw [hsame, htarget.user]
      exact hmay.others.symm
  | remove hmay =>
      simp only [Write.statements, Option.ite_none_left_eq_some,
        Option.some.injEq] at hstatements
      exact absurd htouched (touched_of_remove
        (congrArg Tables.organizationMemberships hstatements.2).symm
        (congrArg Tables.membershipResourceScopes hstatements.2).symm)
  | accept hmay =>
      simp only [Write.statements, Option.ite_none_left_eq_some,
        Option.some.injEq] at hstatements
      have hrow := touched_of_append
        (congrArg Tables.organizationMemberships hstatements.2).symm
        (congrArg Tables.membershipResourceScopes hstatements.2).symm
        (fun scope hscope => (hmay.scopes scope hscope).1) htouched
      obtain ⟨issuer, hissuer, hother⟩ := hmay.others hreplays hstored
      rw [hrow]
      exact Or.inr (.of_issuer hissuer hother)
  | deliver | revokeInvitation | change | reconcile =>
      simp only [Write.statements, Option.ite_none_left_eq_some,
        Option.some.injEq] at hstatements
      refine absurd htouched (touched_of_same ?_ ?_)
      · exact (congrArg Tables.organizationMemberships hstatements.2).symm
      · exact (congrArg Tables.membershipResourceScopes hstatements.2).symm
  | _ =>
      simp only [Write.statements, Option.some.injEq] at hstatements
      refine absurd htouched (touched_of_same ?_ ?_)
      · exact (congrArg Tables.organizationMemberships hstatements).symm
      · exact (congrArg Tables.membershipResourceScopes hstatements).symm

/-- Commit rule: only an invitation of one's own address is stored as one. -/
theorem commit_keeps_invitations_others
    (hjustified : Justified ports request history (.commit write))
    (hothers : ¬ request.InvitesSelf ports database)
    (hstored : NoSelfInvitation database) (happly : write.apply database = some after) :
    NoSelfInvitation after := by
  have hstatements := Write.apply_eq_some.mp happly
  cases hjustified with
  | register huser =>
      rename_i command user identity newEmail credential auditEvent
      have hunique := after.constraints.userId
      simp only [Write.statements, Option.some.injEq] at hstatements
      rw [← hstatements] at hunique
      rw [NoSelfInvitation, ← hstatements]
      intro invitation hinvitation email hemail hhash hself
      rcases List.mem_append.mp hemail with hold | hnew
      · exact hstored invitation hinvitation email hold hhash hself
      · -- the issuer was a user before the new one
        have hissued : email.userId ∈
            database.tables.organizationInvitations.filterMap (·.invitedByUserId) :=
          List.mem_filterMap.mpr ⟨invitation, hinvitation, hself⟩
        obtain ⟨issuer, hmem, hid⟩ := database.constraints.invitationInviter.exists hissued
        apply hunique.fresh hmem
        rw [hid, id_eq, List.mem_singleton.mp hnew, huser]
  | invite hmay =>
      simp only [Write.statements, Option.some.injEq] at hstatements
      rw [NoSelfInvitation, ← hstatements]
      intro invitation hinvitation email hemail hhash hself
      rcases List.mem_append.mp hinvitation with hold | hnew
      · exact hstored invitation hold email hemail hhash hself
      · rw [List.mem_singleton.mp hnew] at hhash hself
        obtain ⟨normalized, hnormalize, hlookup⟩ := hmay.email
        rw [hmay.inviter, Option.some.injEq] at hself
        apply hothers
        refine ⟨email, hemail, hself.symm, ?_⟩
        rw [hnormalize, hhash, hlookup]
        rfl
  | deliver | accept | revokeInvitation =>
      simp only [Write.statements, Option.ite_none_left_eq_some,
        Option.some.injEq] at hstatements
      rw [NoSelfInvitation, ← hstatements.2]
      intro invitation hinvitation email hemail hhash hself
      rcases mem_update.mp hinvitation with ⟨hold, _⟩ | ⟨old, hold, _, rfl⟩
      · exact hstored invitation hold email hemail hhash hself
      · exact hstored old hold email hemail hhash hself
  | update | remove | change | reconcile =>
      simp only [Write.statements, Option.ite_none_left_eq_some,
        Option.some.injEq] at hstatements
      rw [NoSelfInvitation, ← hstatements.2]
      exact hstored
  | _ =>
      simp only [Write.statements, Option.some.injEq] at hstatements
      rw [NoSelfInvitation, ← hstatements]
      exact hstored

end Commits

theorem noSelfInvitation_after {ports : Ports} {database : Database}
    (hstored : NoSelfInvitation database) {choices : List ConsoleChoice}
    (hothers : database.Along ports (InvitesOthers ports) choices) :
    NoSelfInvitation (database.after ports choices).world.store := by
  induction choices using List.reverseRecOn with
  | nil => exact hstored
  | append_singleton choices choice ih =>
      obtain ⟨hbefore, hlast⟩ := (database.along_snoc ports choices choice).mp hothers
      rw [database.after_snoc]
      cases hcommit : (database.after ports choices).commit? choice with
      | none =>
          rw [System.step_store_of_no_commit hcommit]
          exact ih hbefore
      | some commit =>
          rw [System.step_store_of_commit hcommit]
          have hjustified := (console_holds ports database choices).guard_commit hcommit
          exact commit_keeps_invitations_others hjustified (hlast commit hcommit) (ih hbefore)
            (System.commit?_eq_some hcommit).2.2

/-- Run rule: in a run of whole executions in which nobody invites an address
of their own, every membership is issued by another user. -/
theorem memberships_issued_by_others (ports : Ports) (database : Database)
    (choices : List ConsoleChoice) (hstored : NoSelfInvitation database)
    (hserial : System.Serial (Request.program ports) database.idle choices)
    (hothers : database.Along ports (InvitesOthers ports) choices) :
    database.Along ports IssuedByOthers choices := by
  induction choices using List.reverseRecOn with
  | nil => trivial
  | append_singleton choices choice ih =>
      have hserial' : System.Serial (Request.program ports) database.idle choices :=
        ((database.along_snoc ports choices choice).mp hserial).1
      have hothers' := ((database.along_snoc ports choices choice).mp hothers).1
      refine (database.along_snoc ports choices choice).mpr ⟨ih hserial' hothers', ?_⟩
      intro commit hcommit
      have hjustified := (console_holds ports database choices).guard_commit hcommit
      exact commit_issued_by_others hjustified (hserial'.replays hcommit)
        (noSelfInvitation_after hstored hothers') (System.commit?_eq_some hcommit).2.2

namespace Scenario

/-- An organization with an owner 1 and an administrator 7; 7 and a guest 8
have an e-mail address. -/
def addressed : Database where
  tables := {
    users := [⟨1, .active, "owner"⟩, ⟨7, .active, "administrator"⟩, ⟨8, .active, "guest"⟩]
    userEmails := [⟨41, 7, [0], address 'b', true⟩, ⟨42, 8, [0], address 'c', true⟩]
    organizations := [⟨2, "organization", "organization"⟩]
    organizationMemberships := [⟨31, 2, 1, .owner⟩, ⟨32, 2, 7, .admin⟩] }
  constraints := by decide +kernel

/-- The administrator invites an address as a moderator. -/
def invited (letter : Char) : List ConsoleChoice :=
  [.start (.inviteOrganizationMember ⟨7, 2, address letter, .moderator, [], 5⟩)] ++
    turns 0 50 12

/-- The owner removes the administrator. -/
def dismissed : List ConsoleChoice :=
  [.start (.removeOrganizationMember ⟨1, 2, 7, 5⟩)] ++ turns 1 70 7

/-- A user presents the token of the invitation. -/
def accepted (index : Nat) (userId : UUID) : List ConsoleChoice :=
  [.start (.acceptOrganizationInvitation ⟨userId, address 't', 5⟩)] ++ turns index 90 10

end Scenario

/-- The guest accepts the administrator's invitation. -/
theorem memberships_issued_by_others_guest :
    Scenario.addressed.Along Scenario.ports IssuedByOthers
      (Scenario.invited 'c' ++ Scenario.accepted 1 8) :=
  memberships_issued_by_others _ _ _ (by decide +kernel) (by decide +kernel)
    (by decide +kernel)

/-- A dismissed administrator comes back by an invitation of their own. -/
theorem dismissed_administrator_returns :
    System.Serial (Request.program Scenario.ports) Scenario.addressed.idle
        (Scenario.invited 'b' ++ Scenario.dismissed ++ Scenario.accepted 2 7) ∧
      ¬ Scenario.addressed.Along Scenario.ports IssuedByOthers
        (Scenario.invited 'b' ++ Scenario.dismissed ++ Scenario.accepted 2 7) := by
  constructor
  · decide +kernel
  · decide +kernel

end MuxivoConsole
