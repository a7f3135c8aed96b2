/-
One owner for every organization.  Nothing checks ownership globally: it
follows from the ranks that the use cases compare and from the identifiers that
their writes are keyed by, whatever was committed in between.
-/
import MuxivoConsole.Guarantees.Evolution

namespace MuxivoConsole

open Interleaving Relational

/-- The row is an owner's row of the organization. -/
def OrganizationMembershipRecord.ownerOf (organizationId : UUID)
    (row : OrganizationMembershipRecord) : Bool :=
  row.organizationId == organizationId && row.role == .owner

/-- The owner rows of an organization. -/
def Tables.owners (tables : Tables) (organizationId : UUID) :
    List OrganizationMembershipRecord :=
  tables.organizationMemberships.filter (·.ownerOf organizationId)

/-- Every organization has exactly one owner row. -/
def SoleOwners (database : Database) : Prop :=
  ∀ organization ∈ database.tables.organizations,
    ∃ row, database.tables.owners organization.id = [row]

theorem soleOwners_empty : SoleOwners Database.empty :=
  fun _ horganization => absurd horganization List.not_mem_nil

section Commits

variable {ports : Ports} {request : Request} {history : ConsoleHistory}
variable {world : ConsoleWorld} {write : Write}

theorem owners_append {tables : Tables} {added : OrganizationMembershipRecord}
    (hrole : added.role ≠ .owner) (organizationId : UUID) :
    (tables.organizationMemberships ++ [added]).filter (·.ownerOf organizationId) =
      tables.owners organizationId := by
  simp [Tables.owners, OrganizationMembershipRecord.ownerOf, hrole]

/-- Commit rule: a write that creates no organization leaves the owner rows
alone. -/
theorem owners_kept {after : Tables}
    (hjustified : Justified ports request history (.commit write))
    (hrecalls : Recalls world history)
    (hstatements : write.statements world.store.tables = some after)
    (hexisting : ∀ organization ownerMembership auditEvent,
      write ≠ .createOrganization organization ownerMembership auditEvent)
    (organizationId : UUID) :
    after.organizations = world.store.tables.organizations ∧
      after.owners organizationId = world.store.tables.owners organizationId := by
  cases hjustified with
  | create hmay => exact absurd rfl (hexisting _ _ _)
  | add hmay =>
      obtain ⟨actor, _, _, _, _, hassign⟩ := hmay.authority
      simp only [Write.statements, Option.some.injEq] at hstatements
      subst hstatements
      exact ⟨rfl, owners_append (hmay.role ▸ ne_owner_of_mayAssign hassign) _⟩
  | update hmay =>
      obtain ⟨actor, target, hactor, htarget⟩ := hmay.authority
      simp only [Write.statements, Option.ite_none_left_eq_some,
        Option.some.injEq] at hstatements
      obtain ⟨_, rfl⟩ := hstatements
      refine ⟨rfl, filter_update ?_⟩
      intro row hrow hid
      have hbefore := htarget.not_owner hrecalls row hrow (by simpa using hid)
      have hafter := ne_owner_of_mayAssign hactor.2.2.2.2
      rw [← hmay.role] at hafter
      simp [OrganizationMembershipRecord.ownerOf, hbefore, hafter]
  | remove hmay =>
      obtain ⟨actor, target, _, _, _, _, htarget⟩ := hmay.authority
      simp only [Write.statements, Option.ite_none_left_eq_some,
        Option.some.injEq] at hstatements
      obtain ⟨_, rfl⟩ := hstatements
      refine ⟨rfl, ?_⟩
      simp only [Tables.owners, List.filter_filter]
      apply List.filter_congr
      intro row hrow
      by_cases howner : row.ownerOf organizationId = true
      · have hrole : row.role = .owner := by
          simp only [OrganizationMembershipRecord.ownerOf, Bool.and_eq_true, beq_iff_eq] at howner
          exact howner.2
        have hother : (row.id != _) = true :=
          bne_iff_ne.mpr fun hid => htarget.not_owner hrecalls row hrow hid hrole
        rw [howner, hother]
        rfl
      · simp [howner]
  | accept hmay =>
      obtain ⟨past, _, hrow⟩ := hmay.saw
      have hrole := past.store.constraints.invitationRole _ hrow
      simp only [Write.statements, Option.ite_none_left_eq_some,
        Option.some.injEq] at hstatements
      obtain ⟨_, rfl⟩ := hstatements
      exact ⟨rfl, owners_append (hmay.role ▸ hrole) _⟩
  | deliver | revokeInvitation | change | reconcile =>
      simp only [Write.statements, Option.ite_none_left_eq_some,
        Option.some.injEq] at hstatements
      obtain ⟨_, rfl⟩ := hstatements
      exact ⟨rfl, rfl⟩
  | _ =>
      simp only [Write.statements, Option.some.injEq] at hstatements
      subst hstatements
      exact ⟨rfl, rfl⟩

/-- Commit rule: a new organization comes with its one owner, and no other
organization gets a second one. -/
theorem commit_keeps_owners {after : Database}
    (hstored : SoleOwners world.store) (hrecalls : Recalls world history)
    (hjustified : Justified ports request history (.commit write))
    (happly : write.apply world.store = some after) : SoleOwners after := by
  have hstatements := Write.apply_eq_some.mp happly
  intro organization horganization
  by_cases hcreates : ∃ created ownerMembership auditEvent,
      write = .createOrganization created ownerMembership auditEvent
  · obtain ⟨created, ownerMembership, auditEvent, rfl⟩ := hcreates
    have hunique := after.constraints.organizationId
    simp only [Write.statements, Option.some.injEq] at hstatements
    rw [← hstatements] at horganization hunique ⊢
    cases hjustified with
    | create hmay =>
        rw [Tables.owners, List.filter_append]
        rcases List.mem_append.mp horganization with hold | hnew
        · -- an organization that was there before
          obtain ⟨row, hrow⟩ := hstored organization hold
          have hother : ownerMembership.ownerOf organization.id = false := by
            have hne := (hunique.fresh hold).symm
            simp [OrganizationMembershipRecord.ownerOf, hmay.organization, hne]
          exact ⟨row, by simp [Tables.owners] at hrow ⊢; simp [hrow, hother]⟩
        · -- the new one had no members
          rw [List.mem_singleton] at hnew
          have hnone : world.store.tables.organizationMemberships.filter
              (·.ownerOf organization.id) = [] := by
            rw [List.filter_eq_nil_iff]
            intro row hrow howner
            simp only [OrganizationMembershipRecord.ownerOf, Bool.and_eq_true,
              beq_iff_eq] at howner
            obtain ⟨known, hknown, hid⟩ :=
              world.store.constraints.membershipOrganization.exists hrow
            apply hunique.fresh hknown
            rw [hid, howner.1, hnew]
          have howner : ownerMembership.ownerOf organization.id = true := by
            simp [OrganizationMembershipRecord.ownerOf, hmay.organization, hmay.role, hnew]
          exact ⟨ownerMembership, by rw [hnone, List.filter_cons_of_pos howner]; rfl⟩
  · obtain ⟨hsame, howners⟩ := owners_kept hjustified hrecalls hstatements
      (fun created ownerMembership auditEvent hwrite =>
        hcreates ⟨created, ownerMembership, auditEvent, hwrite⟩) organization.id
    rw [hsame] at horganization
    rw [howners]
    exact hstored organization horganization

end Commits

/-- The discipline with one owner for each organization. -/
theorem ownersDiscipline_verified (ports : Ports) :
    (consoleDiscipline ports SoleOwners).Verified (Request.program ports) :=
  consoleDiscipline_verified fun _ _ _ _ _ hstored hrecalls hjustified happly =>
    commit_keeps_owners hstored hrecalls hjustified happly

theorem Justified.created {ports : Ports} {request : Request} {history : ConsoleHistory}
    {organization : OrganizationRecord} {ownerMembership : OrganizationMembershipRecord}
    {auditEvent : AuditEvent}
    (hjustified : Justified ports request history
      (.commit (Write.createOrganization organization ownerMembership auditEvent))) :
    ∃ command, request = .createOrganization command ∧
      MayCreate command history organization ownerMembership := by
  cases hjustified with
  | create hmay => exact ⟨_, rfl, hmay⟩

/-- A step of the run committed the creation of the organization by the user. -/
def CreatedBy (ports : Ports) (choices : List ConsoleChoice) (organizationId userId : UUID) :
    Prop :=
  ∃ before choice rest, choices = before ++ [choice] ++ rest ∧
    ∃ commit ∈ (Database.empty.after ports before).commit? choice,
      ∃ command organization ownerMembership auditEvent,
        commit.process.request = .createOrganization command ∧
          commit.write = .createOrganization organization ownerMembership auditEvent ∧
            organization.id = organizationId ∧ command.actorId = userId

theorem CreatedBy.append {ports : Ports} {choices : List ConsoleChoice}
    {organizationId userId : UUID} (hcreated : CreatedBy ports choices organizationId userId)
    (more : List ConsoleChoice) : CreatedBy ports (choices ++ more) organizationId userId := by
  obtain ⟨before, choice, rest, rfl, hcommit⟩ := hcreated
  exact ⟨before, choice, rest ++ more, List.append_assoc _ _ _, hcommit⟩

/-- Every stored organization was created by somebody in the run. -/
theorem exists_createdBy (ports : Ports) (choices : List ConsoleChoice) :
    ∀ organization ∈ (Database.empty.after ports choices).world.store.tables.organizations,
      ∃ userId, CreatedBy ports choices organization.id userId := by
  induction choices using List.reverseRecOn with
  | nil => exact fun _ horganization => absurd horganization List.not_mem_nil
  | append_singleton choices choice ih =>
      intro organization horganization
      have hearlier : organization ∈
          (Database.empty.after ports choices).world.store.tables.organizations →
            ∃ userId, CreatedBy ports (choices ++ [choice]) organization.id userId := by
        intro hold
        obtain ⟨userId, hcreated⟩ := ih organization hold
        exact ⟨userId, hcreated.append [choice]⟩
      rw [Database.after_snoc] at horganization
      cases hcommit : (Database.empty.after ports choices).commit? choice with
      | none =>
          rw [System.step_store_of_no_commit hcommit] at horganization
          exact hearlier horganization
      | some commit =>
          rw [System.step_store_of_commit hcommit] at horganization
          have hholds := console_holds ports Database.empty choices
          obtain ⟨hprocess, _, happly⟩ := System.commit?_eq_some hcommit
          have hjustified := hholds.guard_commit hcommit
          have hstatements := Write.apply_eq_some.mp happly
          by_cases hcreates : ∃ created ownerMembership auditEvent,
              commit.write = .createOrganization created ownerMembership auditEvent
          · obtain ⟨created, ownerMembership, auditEvent, hwrite⟩ := hcreates
            obtain ⟨command, hrequest, _⟩ := (hwrite ▸ hjustified).created
            rw [hwrite] at hstatements
            simp only [Write.statements, Option.some.injEq] at hstatements
            rw [← hstatements] at horganization
            rcases List.mem_append.mp horganization with hold | hnew
            · exact hearlier hold
            · rw [List.mem_singleton.mp hnew]
              exact ⟨command.actorId, choices, choice, [], (List.append_nil _).symm, commit,
                hcommit, command, created, ownerMembership, auditEvent, hrequest, hwrite, rfl,
                rfl⟩
          · have hsame := (owners_kept hjustified
              (recalls_of_informed (hholds.informed _ hprocess)) hstatements
              (fun created ownerMembership auditEvent hwrite =>
                hcreates ⟨created, ownerMembership, auditEvent, hwrite⟩) organization.id).1
            rw [hsame] at horganization
            exact hearlier horganization

/-- The creator of an organization is stored as its owner for good. -/
theorem CreatedBy.owner {ports : Ports} {choices : List ConsoleChoice}
    {organizationId userId : UUID} (hcreated : CreatedBy ports choices organizationId userId) :
    ∃ row ∈ (Database.empty.after ports
        choices).world.store.tables.owners organizationId, row.userId = userId := by
  obtain ⟨before, choice, rest, rfl, commit, hcommit, command, organization, ownerMembership,
    auditEvent, hrequest, hwrite, rfl, rfl⟩ := hcreated
  have hjustified := (console_holds ports Database.empty before).guard_commit hcommit
  have hstatements := Write.apply_eq_some.mp (System.commit?_eq_some hcommit).2.2
  rw [hwrite] at hjustified hstatements
  obtain ⟨creation, hcreation, hmay⟩ := hjustified.created
  rw [hrequest] at hcreation
  cases hcreation
  simp only [Write.statements, Option.some.injEq] at hstatements
  have hmem : ownerMembership ∈ (Database.empty.after ports
      (before ++ [choice])).world.store.tables.organizationMemberships := by
    rw [Database.after_snoc, System.step_store_of_commit hcommit, ← hstatements]
    exact List.mem_append_right _ List.mem_cons_self
  have hevolves := console_evolves ports Database.empty (before ++ [choice]) rest
  have hkept := hevolves.tables.memberships.owner ownerMembership hmem hmay.role
  refine ⟨ownerMembership, List.mem_filter.mpr ⟨hkept, ?_⟩, hmay.user⟩
  simp [OrganizationMembershipRecord.ownerOf, hmay.organization, hmay.role]

/-- In every reachable state each organization has exactly one owner row, and
it is the row of the user who created the organization. -/
theorem exactly_one_owner (ports : Ports) (choices : List ConsoleChoice) :
    ∀ organization ∈ (Database.empty.after ports choices).world.store.tables.organizations,
      (∃ userId, CreatedBy ports choices organization.id userId) ∧
        ∀ userId, CreatedBy ports choices organization.id userId →
          ∃ row, (Database.empty.after ports
              choices).world.store.tables.owners organization.id = [row] ∧
            row.userId = userId := by
  intro organization horganization
  refine ⟨exists_createdBy ports choices organization horganization, ?_⟩
  intro userId hcreated
  have hsole := (consoleDiscipline_holds (ownersDiscipline_verified ports)
    soleOwners_empty choices).inv.2
  obtain ⟨row, howners⟩ := hsole organization horganization
  obtain ⟨owner, howner, huser⟩ := hcreated.owner
  rw [howners, List.mem_singleton] at howner
  exact ⟨row, howners, howner ▸ huser⟩

theorem exactly_one_owner_founded :
    (∃ userId, CreatedBy Scenario.ports Scenario.founded 21 userId) ∧
      ∀ userId, CreatedBy Scenario.ports Scenario.founded 21 userId →
        ∃ row, (Database.empty.after Scenario.ports
            Scenario.founded).world.store.tables.owners 21 = [row] ∧ row.userId = userId :=
  exactly_one_owner Scenario.ports Scenario.founded ⟨21, "organization", "organization"⟩
    (by decide +kernel)

end MuxivoConsole
