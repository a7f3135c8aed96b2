/-
The base discipline of the Console: what every commit leaves of the rows that
were there before, whichever use cases overlap.  Membership rows keep their
identity, owners stay, invitations and connections keep their owner.
-/
import MuxivoConsole.Guarantees.ConnectionUseCases
import MuxivoConsole.Guarantees.InvitationUseCases

namespace MuxivoConsole

open Interleaving Relational

/-- What a use case promises when it returns. -/
def Promised (request : Request) (history : ConsoleHistory)
    (outcome : Except Failure Outcome) : Prop :=
  match request with
  | .authorize request =>
      ∀ decision, outcome = .ok (.decision decision) → decision.allowed = true →
        ∃ membership,
          TornRead [] request.actorId request.organizationId history membership ∧
            membership.allows request = true
  | .managePlatformConnectionLifecycle command =>
      ∀ connection, outcome = .ok (.connection connection) →
        connection.fields.id = command.connectionId ∧ LifecycleReturned command [] history
  | _ => True

/-- Tagging a result changes nothing but the result. -/
theorem returning_ensures {α : Type} {guard : ConsoleHistory → Action console → Prop}
    {tag : α → Outcome} {useCase : UseCase α} {post : ConsoleHistory → α → Prop}
    {history : ConsoleHistory} (hensures : useCase.Ensures guard post history) :
    (UseCase.returning tag useCase).Ensures guard
      (fun after outcome => ∃ value, outcome = tag value ∧ post after value) history := by
  unfold UseCase.returning
  refine hensures.bind ?_
  intro after value hpost
  exact Execution.ensures_pure ⟨value, rfl, hpost⟩

/-- Every use case keeps to its justification and its promise. -/
theorem program_meets (ports : Ports) (request : Request) :
    (request.program ports).Meets (Justified ports request) (Promised request) [] := by
  have htrivial : ∀ {α : Type} {tag : α → Outcome} {useCase : UseCase α}
      {guard : ConsoleHistory → Action console → Prop},
      useCase.Ensures guard (fun _ _ => True) [] →
        (UseCase.returning tag useCase).Meets guard (fun _ _ => True) [] :=
    fun hensures => (returning_ensures hensures).meets.mono (fun _ _ hguard => hguard)
      fun _ _ _ => trivial
  cases request with
  | completeEmailPasswordRegistration command =>
      exact htrivial (completeEmailPasswordRegistration_ensures command)
  | createOrganization command => exact htrivial (createOrganization_ensures command)
  | addOrganizationMember command => exact htrivial (addOrganizationMember_ensures command)
  | updateOrganizationMember command =>
      exact htrivial (updateOrganizationMember_ensures command)
  | removeOrganizationMember command =>
      exact htrivial (removeOrganizationMember_ensures command)
  | inviteOrganizationMember command =>
      exact htrivial (inviteOrganizationMember_ensures command)
  | acceptOrganizationInvitation command =>
      exact htrivial (acceptOrganizationInvitation_ensures command)
  | revokeOrganizationInvitation command =>
      exact htrivial (revokeOrganizationInvitation_ensures command)
  | authorize request =>
      refine (returning_ensures (authorize_torn request)).meets.mono
        (fun _ _ hguard => hguard) ?_
      rintro after outcome hpost decision hdecision hallowed
      obtain ⟨value, hvalue, _, hread⟩ := hpost _ hdecision
      cases hvalue
      exact hread hallowed
  | connectPlatformConnection command =>
      exact htrivial (connectPlatformConnection_ensures command)
  | managePlatformConnectionLifecycle command =>
      refine (returning_ensures (managePlatformConnectionLifecycle_ensures command)).meets.mono
        (fun _ _ hguard => hguard) ?_
      rintro after outcome hpost connection hconnection
      obtain ⟨value, hvalue, hreturned⟩ := hpost _ hconnection
      cases hvalue
      exact hreturned
  | reconcilePlatformConnections command =>
      exact htrivial (reconcilePlatformConnections_ensures command)
  | updatePlatformAiModerationPolicy command =>
      exact htrivial (updatePlatformAiModerationPolicy_ensures command)
  | updatePlatformChannelPurpose command =>
      exact htrivial (updatePlatformChannelPurpose_ensures command)
  | updatePlatformWelcomeSettings command =>
      exact htrivial (updatePlatformWelcomeSettings_ensures command)

/-- How the membership rows may change while the identifiers `spent` are in
use: a row with such an identifier was there before and kept its user, its
organization and whether it is the owner's; owner rows stay as they are. -/
structure MembershipsEvolve (spent : List UUID)
    (before after : List OrganizationMembershipRecord) : Prop where
  origin : ∀ row ∈ after, row.id ∈ spent → ∃ old ∈ before, old.id = row.id ∧
    old.organizationId = row.organizationId ∧ old.userId = row.userId ∧
      (old.role = .owner ↔ row.role = .owner)
  owner : ∀ row ∈ before, row.role = .owner → row ∈ after

/-- What an invitation row keeps for good. -/
structure SameInvitation (first second : OrganizationInvitationRecord) : Prop where
  id : first.id = second.id
  organizationId : first.organizationId = second.organizationId
  invitedByUserId : first.invitedByUserId = second.invitedByUserId
  emailLookupHash : first.emailLookupHash = second.emailLookupHash
  role : first.role = second.role

/-- What a connection row keeps for good. -/
structure SameConnection (first second : PlatformConnectionRecord) : Prop where
  id : first.id = second.id
  organizationId : first.organizationId = second.organizationId
  platform : first.platform = second.platform
  externalResourceId : first.externalResourceId = second.externalResourceId

/-- Every row persists, up to `same`. -/
def Persist {ρ : Type} (same : ρ → ρ → Prop) (before after : List ρ) : Prop :=
  ∀ row ∈ before, ∃ kept ∈ after, same row kept

structure TablesEvolve (spent : List UUID) (before after : Tables) : Prop where
  memberships :
    MembershipsEvolve spent before.organizationMemberships after.organizationMemberships
  invitations :
    Persist SameInvitation before.organizationInvitations after.organizationInvitations
  invitationScopes :
    before.organizationInvitationScopes ⊆ after.organizationInvitationScopes
  connections :
    Persist SameConnection before.platformConnections after.platformConnections
  organizations : before.organizations ⊆ after.organizations
  users : before.users ⊆ after.users

/-- How the world may change from one instant to a later one. -/
structure Evolves (before after : ConsoleWorld) : Prop where
  spent : before.spent ⊆ after.spent
  tables : TablesEvolve before.spent before.store.tables after.store.tables

/-- Every stored membership has an identifier that is in use. -/
def Known (world : ConsoleWorld) : Prop :=
  ∀ row ∈ world.store.tables.organizationMemberships, row.id ∈ world.spent

section Relations

variable {spent : List UUID}

theorem SameInvitation.refl (row : OrganizationInvitationRecord) : SameInvitation row row :=
  ⟨rfl, rfl, rfl, rfl, rfl⟩

theorem SameInvitation.trans {first second third : OrganizationInvitationRecord}
    (hfirst : SameInvitation first second) (hsecond : SameInvitation second third) :
    SameInvitation first third :=
  ⟨hfirst.id.trans hsecond.id, hfirst.organizationId.trans hsecond.organizationId,
    hfirst.invitedByUserId.trans hsecond.invitedByUserId,
    hfirst.emailLookupHash.trans hsecond.emailLookupHash, hfirst.role.trans hsecond.role⟩

theorem SameConnection.refl (row : PlatformConnectionRecord) : SameConnection row row :=
  ⟨rfl, rfl, rfl, rfl⟩

theorem SameConnection.trans {first second third : PlatformConnectionRecord}
    (hfirst : SameConnection first second) (hsecond : SameConnection second third) :
    SameConnection first third :=
  ⟨hfirst.id.trans hsecond.id, hfirst.organizationId.trans hsecond.organizationId,
    hfirst.platform.trans hsecond.platform,
    hfirst.externalResourceId.trans hsecond.externalResourceId⟩

theorem Persist.refl {ρ : Type} {same : ρ → ρ → Prop} (hsame : ∀ row, same row row)
    (rows : List ρ) : Persist same rows rows :=
  fun row hrow => ⟨row, hrow, hsame row⟩

theorem Persist.append {ρ : Type} {same : ρ → ρ → Prop} (hsame : ∀ row, same row row)
    (rows added : List ρ) : Persist same rows (rows ++ added) :=
  fun row hrow => ⟨row, List.mem_append_left _ hrow, hsame row⟩

theorem Persist.trans {ρ : Type} {same : ρ → ρ → Prop}
    (hsame : ∀ {first second third}, same first second → same second third →
      same first third)
    {first second third : List ρ} (hfirst : Persist same first second)
    (hsecond : Persist same second third) : Persist same first third := by
  intro row hrow
  obtain ⟨kept, hkept, hone⟩ := hfirst row hrow
  obtain ⟨last, hlast, htwo⟩ := hsecond kept hkept
  exact ⟨last, hlast, hsame hone htwo⟩

/-- A statement that changes other columns keeps every row. -/
theorem Persist.update {ρ : Type} {same : ρ → ρ → Prop} (hrefl : ∀ row, same row row)
    {condition : ρ → Bool} {change : ρ → ρ} (hchange : ∀ row, same row (change row))
    (rows : List ρ) : Persist same rows (Relational.update condition change rows) := by
  intro row hrow
  by_cases hcondition : condition row = true
  · exact ⟨change row, mem_update.mpr (Or.inr ⟨row, hrow, hcondition, rfl⟩), hchange row⟩
  · exact ⟨row, mem_update.mpr (Or.inl ⟨hrow, by simpa using hcondition⟩), hrefl row⟩

theorem MembershipsEvolve.refl (rows : List OrganizationMembershipRecord) :
    MembershipsEvolve spent rows rows :=
  ⟨fun row hrow _ => ⟨row, hrow, rfl, rfl, rfl, Iff.rfl⟩, fun _ hrow _ => hrow⟩

/-- A row with a fresh identifier is no old row in new clothes. -/
theorem MembershipsEvolve.append (rows : List OrganizationMembershipRecord)
    {added : OrganizationMembershipRecord} (hfresh : added.id ∉ spent) :
    MembershipsEvolve spent rows (rows ++ [added]) := by
  refine ⟨?_, fun row hrow _ => List.mem_append_left _ hrow⟩
  intro row hrow hspent
  rcases List.mem_append.mp hrow with hold | hnew
  · exact ⟨row, hold, rfl, rfl, rfl, Iff.rfl⟩
  · rw [List.mem_singleton] at hnew
    rw [hnew] at hspent
    exact absurd hspent hfresh

/-- Changing a role between two that are not the owner's. -/
theorem MembershipsEvolve.update {rows : List OrganizationMembershipRecord} {id : UUID}
    {role : OrganizationRole} (hrole : role ≠ .owner)
    (htarget : ∀ row ∈ rows, row.id = id → row.role ≠ .owner) :
    MembershipsEvolve spent rows
      (Relational.update (fun row => row.id == id) (fun row => { row with role := role })
        rows) := by
  constructor
  · intro row hrow _
    rcases mem_update.mp hrow with ⟨hold, _⟩ | ⟨old, hold, hid, rfl⟩
    · exact ⟨row, hold, rfl, rfl, rfl, Iff.rfl⟩
    · have hbelow := htarget old hold (by simpa using hid)
      exact ⟨old, hold, rfl, rfl, rfl, fun howner => absurd howner hbelow,
        fun howner => absurd howner hrole⟩
  · intro row hrow howner
    have hother : (row.id == id) = false := by
      by_contra hid
      exact htarget row hrow (by simpa using hid) howner
    exact mem_update.mpr (Or.inl ⟨hrow, hother⟩)

/-- Removing a member who is not the owner. -/
theorem MembershipsEvolve.remove {rows : List OrganizationMembershipRecord} {id : UUID}
    (htarget : ∀ row ∈ rows, row.id = id → row.role ≠ .owner) :
    MembershipsEvolve spent rows (rows.filter (·.id != id)) := by
  constructor
  · intro row hrow _
    exact ⟨row, List.mem_of_mem_filter hrow, rfl, rfl, rfl, Iff.rfl⟩
  · intro row hrow howner
    have hother : row.id ≠ id := fun hid => htarget row hrow hid howner
    exact List.mem_filter.mpr ⟨hrow, by simpa using hother⟩

theorem MembershipsEvolve.trans {spent' : List UUID} (hspent : spent ⊆ spent')
    {first second third : List OrganizationMembershipRecord}
    (hfirst : MembershipsEvolve spent first second)
    (hsecond : MembershipsEvolve spent' second third) :
    MembershipsEvolve spent first third := by
  constructor
  · intro row hrow hused
    obtain ⟨middle, hmiddle, hid, horganization, huser, howner⟩ :=
      hsecond.origin row hrow (hspent hused)
    obtain ⟨old, hold, hid', horganization', huser', howner'⟩ :=
      hfirst.origin middle hmiddle (hid ▸ hused)
    exact ⟨old, hold, hid'.trans hid, horganization'.trans horganization,
      huser'.trans huser, howner'.trans howner⟩
  · intro row hrow howner
    exact hsecond.owner row (hfirst.owner row hrow howner) howner

theorem TablesEvolve.refl (tables : Tables) : TablesEvolve spent tables tables :=
  ⟨.refl _, .refl .refl _, List.Subset.refl _, .refl .refl _, List.Subset.refl _,
    List.Subset.refl _⟩

theorem Evolves.refl (world : ConsoleWorld) : Evolves world world :=
  ⟨List.Subset.refl _, .refl _⟩

theorem Evolves.trans {first second third : ConsoleWorld} (hfirst : Evolves first second)
    (hsecond : Evolves second third) : Evolves first third where
  spent := List.Subset.trans hfirst.spent hsecond.spent
  tables := {
    memberships := hfirst.tables.memberships.trans hfirst.spent hsecond.tables.memberships
    invitations := hfirst.tables.invitations.trans .trans hsecond.tables.invitations
    invitationScopes :=
      List.Subset.trans hfirst.tables.invitationScopes hsecond.tables.invitationScopes
    connections := hfirst.tables.connections.trans .trans hsecond.tables.connections
    organizations :=
      List.Subset.trans hfirst.tables.organizations hsecond.tables.organizations
    users := List.Subset.trans hfirst.tables.users hsecond.tables.users }

end Relations

/-- What a program may rely on about the worlds it read lately. -/
def Recalls (world : ConsoleWorld) (history : ConsoleHistory) : Prop :=
  ∀ past ∈ recent history, Known past ∧ Evolves past world

section Commits

variable {world : ConsoleWorld} {history : ConsoleHistory}

/-- A stored row with the identifier of a row that was read is that row, up to
a change of role that does not involve the owner's. -/
theorem SawMembership.origin (hrecalls : Recalls world history)
    {old row : OrganizationMembershipRecord} (hsaw : SawMembership history old)
    (hrow : row ∈ world.store.tables.organizationMemberships) (hid : row.id = old.id) :
    old.organizationId = row.organizationId ∧ old.userId = row.userId ∧
      (old.role = .owner ↔ row.role = .owner) := by
  obtain ⟨past, hpast, hold⟩ := hsaw
  obtain ⟨hknown, hevolves⟩ := hrecalls past hpast
  have hspent : row.id ∈ past.spent := hid ▸ hknown old hold
  obtain ⟨first, hfirst, hfirstId, hsame⟩ := hevolves.tables.memberships.origin row hrow hspent
  have heq : first = old :=
    past.store.constraints.membershipId.eq hfirst hold (hfirstId.trans hid)
  exact heq ▸ hsame

/-- The owner that was read is still the owner. -/
theorem SawMembership.owner (hrecalls : Recalls world history)
    {old : OrganizationMembershipRecord} (hsaw : SawMembership history old)
    (howner : old.role = .owner) : old ∈ world.store.tables.organizationMemberships := by
  obtain ⟨past, hpast, hold⟩ := hsaw
  exact (hrecalls past hpast).2.tables.memberships.owner old hold howner

theorem ne_owner_of_mayAssign {actor target : OrganizationRole}
    (hbelow : actor.mayAssign target = true) : target ≠ .owner := by
  intro howner
  rw [howner] at hbelow
  simp at hbelow

/-- The target of an update or a removal is not the owner when it commits. -/
theorem SawTarget.not_owner (hrecalls : Recalls world history)
    {membershipId userId organizationId : UUID} {actorRole : OrganizationRole}
    {target : OrganizationMembershipRecord}
    (htarget : SawTarget history membershipId userId organizationId actorRole target) :
    ∀ row ∈ world.store.tables.organizationMemberships, row.id = membershipId →
      row.role ≠ .owner := by
  intro row hrow hid howner
  have hsame := htarget.saw.origin hrecalls hrow (hid.trans htarget.id.symm)
  exact ne_owner_of_mayAssign htarget.below (hsame.2.2.mpr howner)

/-- The statements of a justified write let the tables evolve, and every
membership row left has an identifier that was in use or is being spent. -/
theorem statements_evolve {ports : Ports} {request : Request} {write : Write}
    {tables : Tables} (hjustified : Justified ports request history (.commit write))
    (hrecalls : Recalls world history) (hheld : ∀ id ∈ held history, id ∉ world.spent)
    (hknown : Known world)
    (hstatements : write.statements world.store.tables = some tables) :
    (∀ row ∈ tables.organizationMemberships, row.id ∈ held history ++ world.spent) ∧
      TablesEvolve world.spent world.store.tables tables := by
  have hspent : ∀ row ∈ world.store.tables.organizationMemberships,
      row.id ∈ held history ++ world.spent :=
    fun row hrow => List.mem_append_right _ (hknown row hrow)
  have hunchanged : TablesEvolve world.spent world.store.tables world.store.tables := .refl _
  have hadded : ∀ membership : OrganizationMembershipRecord, membership.id ∈ held history →
      ∀ row ∈ world.store.tables.organizationMemberships ++ [membership],
        row.id ∈ held history ++ world.spent := by
    intro membership hfresh row hrow
    rcases List.mem_append.mp hrow with hold | hnew
    · exact hspent row hold
    · rw [List.mem_singleton.mp hnew]
      exact List.mem_append_left _ hfresh
  cases hjustified with
  | register huser =>
      simp only [Write.statements, Option.some.injEq] at hstatements
      subst hstatements
      exact ⟨hspent, { hunchanged with users := List.subset_append_left _ _ }⟩
  | create hmay =>
      simp only [Write.statements, Option.some.injEq] at hstatements
      subst hstatements
      exact ⟨hadded _ hmay.fresh, { hunchanged with
        memberships := .append _ (hheld _ hmay.fresh)
        organizations := List.subset_append_left _ _ }⟩
  | add hmay =>
      simp only [Write.statements, Option.some.injEq] at hstatements
      subst hstatements
      exact ⟨hadded _ hmay.fresh, { hunchanged with
        memberships := .append _ (hheld _ hmay.fresh) }⟩
  | update hmay =>
      obtain ⟨actor, target, hactor, htarget⟩ := hmay.authority
      simp only [Write.statements, Option.ite_none_left_eq_some,
        Option.some.injEq] at hstatements
      obtain ⟨_, rfl⟩ := hstatements
      refine ⟨?_, { hunchanged with
        memberships := .update ?_ (htarget.not_owner hrecalls) }⟩
      · intro row hrow
        rcases mem_update.mp hrow with ⟨hold, _⟩ | ⟨old, hold, _, rfl⟩
        · exact hspent row hold
        · exact hspent old hold
      · rw [hmay.role]
        exact ne_owner_of_mayAssign hactor.2.2.2.2
  | remove hmay =>
      obtain ⟨actor, target, _, _, _, _, htarget⟩ := hmay.authority
      simp only [Write.statements, Option.ite_none_left_eq_some,
        Option.some.injEq] at hstatements
      obtain ⟨_, rfl⟩ := hstatements
      refine ⟨?_, { hunchanged with
        memberships := .remove (htarget.not_owner hrecalls) }⟩
      intro row hrow
      exact hspent row (List.mem_of_mem_filter hrow)
  | invite hmay =>
      simp only [Write.statements, Option.some.injEq] at hstatements
      subst hstatements
      exact ⟨hspent, { hunchanged with
        invitations := .append .refl _ _
        invitationScopes := List.subset_append_left _ _ }⟩
  | deliver =>
      simp only [Write.statements, Option.ite_none_left_eq_some,
        Option.some.injEq] at hstatements
      obtain ⟨_, rfl⟩ := hstatements
      exact ⟨hspent, { hunchanged with
        invitations := .update .refl (fun _ => ⟨rfl, rfl, rfl, rfl, rfl⟩) _ }⟩
  | accept hmay =>
      simp only [Write.statements, Option.ite_none_left_eq_some,
        Option.some.injEq] at hstatements
      obtain ⟨_, rfl⟩ := hstatements
      exact ⟨hadded _ hmay.fresh, { hunchanged with
        memberships := .append _ (hheld _ hmay.fresh)
        invitations := .update .refl (fun _ => ⟨rfl, rfl, rfl, rfl, rfl⟩) _ }⟩
  | revokeInvitation =>
      simp only [Write.statements, Option.ite_none_left_eq_some,
        Option.some.injEq] at hstatements
      obtain ⟨_, rfl⟩ := hstatements
      exact ⟨hspent, { hunchanged with
        invitations := .update .refl (fun _ => ⟨rfl, rfl, rfl, rfl, rfl⟩) _ }⟩
  | connect hmay =>
      simp only [Write.statements, Option.some.injEq] at hstatements
      subst hstatements
      exact ⟨hspent, { hunchanged with connections := .append .refl _ _ }⟩
  | change hmay =>
      simp only [Write.statements, Option.ite_none_left_eq_some,
        Option.some.injEq] at hstatements
      obtain ⟨_, rfl⟩ := hstatements
      exact ⟨hspent, { hunchanged with
        connections := .update .refl (fun _ => ⟨rfl, rfl, rfl, rfl⟩) _ }⟩
  | reconcile hmay =>
      simp only [Write.statements, Option.ite_none_left_eq_some,
        Option.some.injEq] at hstatements
      obtain ⟨_, rfl⟩ := hstatements
      exact ⟨hspent, { hunchanged with
        connections := .update .refl (fun _ => ⟨rfl, rfl, rfl, rfl⟩) _ }⟩
  | audit =>
      simp only [Write.statements, Option.some.injEq] at hstatements
      subst hstatements
      exact ⟨hspent, { hunchanged with }⟩

/-- Commit rule: whatever a use case may write lets the world evolve and keeps
the identifiers known. -/
theorem commit_evolves {ports : Ports} {request : Request} {write : Write}
    {after : Database} (hjustified : Justified ports request history (.commit write))
    (hrecalls : Recalls world history) (hheld : ∀ id ∈ held history, id ∉ world.spent)
    (hknown : Known world) (happly : write.apply world.store = some after) :
    Known ⟨after, held history ++ world.spent⟩ ∧
      Evolves world ⟨after, held history ++ world.spent⟩ := by
  have hstatements := Write.apply_eq_some.mp happly
  obtain ⟨hknown', hevolve⟩ :=
    statements_evolve hjustified hrecalls hheld hknown hstatements
  exact ⟨hknown', List.subset_append_right _ _, hevolve⟩

end Commits

/-- The discipline of the Console, with a further invariant of what is stored. -/
def consoleDiscipline (ports : Ports) (Stored : Database → Prop) :
    Discipline console Request Failure Outcome where
  guard := Justified ports
  post := Promised
  Inv world := Known world ∧ Stored world.store
  Evolves := Evolves

section Discipline

variable {ports : Ports} {Stored : Database → Prop}

theorem recalls_of_informed {world : ConsoleWorld} {history : ConsoleHistory}
    (hinformed : (consoleDiscipline ports Stored).Informed world history) :
    Recalls world history := by
  intro past hpast
  have hseen := seen_of_recent hpast
  exact ⟨(hinformed.inv past hseen).1, hinformed.evolves past hseen⟩

/-- An invariant of the stored rows may be added to the discipline as soon as
every justified commit keeps it. -/
theorem consoleDiscipline_verified
    (hkeeps : ∀ (request : Request) (history : ConsoleHistory) (world : ConsoleWorld)
      (write : Write) (after : Database), Stored world.store → Recalls world history →
        Justified ports request history (.commit write) →
          write.apply world.store = some after → Stored after) :
    (consoleDiscipline ports Stored).Verified (Request.program ports) where
  refl := Evolves.refl
  trans _ _ _ := Evolves.trans
  meets := program_meets ports
  keeps := by
    intro request history write world after hinv hinformed hheld hjustified happly
    have hrecalls := recalls_of_informed hinformed
    obtain ⟨hknown, hevolves⟩ :=
      commit_evolves hjustified hrecalls hheld hinv.1 happly
    exact ⟨⟨hknown, hkeeps request history world write after hinv.2 hrecalls hjustified
      happly⟩, hevolves⟩

theorem known_idle (database : Database) : Known database.idle.world :=
  fun _ hrow => List.mem_map_of_mem hrow

/-- Run rule for an invariant of the stored rows. -/
theorem consoleDiscipline_holds
    (hverified : (consoleDiscipline ports Stored).Verified (Request.program ports))
    {database : Database} (hstored : Stored database) (choices : List ConsoleChoice) :
    (consoleDiscipline ports Stored).Holds
      (database.after ports choices) :=
  ((Discipline.holds_idle (D := consoleDiscipline ports Stored)
    ⟨known_idle database, hstored⟩ fun _ hname => hname).run hverified choices).1

end Discipline

theorem console_verified (ports : Ports) :
    (consoleDiscipline ports fun _ => True).Verified (Request.program ports) :=
  consoleDiscipline_verified fun _ _ _ _ _ _ _ _ _ => trivial

/-- What holds of every run over any database. -/
theorem console_holds (ports : Ports) (database : Database)
    (choices : List ConsoleChoice) :
    (consoleDiscipline ports fun _ => True).Holds (database.after ports choices) :=
  consoleDiscipline_holds (console_verified ports) trivial choices

/-- What changes between two instants of a run. -/
theorem console_evolves (ports : Ports) (database : Database)
    (before rest : List ConsoleChoice) :
    Evolves (database.after ports before).world (database.after ports (before ++ rest)).world := by
  have hrun := ((console_holds ports database before).run (console_verified ports) rest).2
  rwa [← System.run_append database.idle] at hrun

end MuxivoConsole
