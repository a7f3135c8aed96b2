/-
Authority over members at the moment of a commit.  The use cases compare ranks
that they read earlier; a demotion, a removal or a promotion in between is not
noticed by the write.
-/
import MuxivoConsole.Guarantees.Evolution

namespace MuxivoConsole

open Interleaving

/-- Who manages the members of which organization in this request. -/
def Request.memberActor : Request → Option (UUID × UUID)
  | .addOrganizationMember command => some (command.actorId, command.organizationId)
  | .updateOrganizationMember command => some (command.actorId, command.organizationId)
  | .removeOrganizationMember command => some (command.actorId, command.organizationId)
  | _ => none

/-- The role that a member write grants. -/
def Write.grantedRole : Write → Option OrganizationRole
  | .addMember membership _ _ => some membership.role
  | .updateMember _ role _ _ => some role
  | _ => none

/-- The membership that a member write changes or deletes. -/
def Write.targetMembership : Write → Option UUID
  | .updateMember membershipId _ _ _ => some membershipId
  | .removeMember membershipId _ => some membershipId
  | _ => none

/-- The stored row of the actor manages members and outranks both the granted
role and the stored role of the target. -/
def HoldsAuthority (database : Database) (write : Write) (actorId organizationId : UUID) :
    Prop :=
  ∃ actor ∈ database.tables.organizationMemberships, actor.userId = actorId ∧
    actor.organizationId = organizationId ∧ actor.role.canManageMembers = true ∧
      (∀ role ∈ write.grantedRole, actor.role.mayAssign role = true) ∧
        ∀ target ∈ database.tables.organizationMemberships,
          write.targetMembership = some target.id →
            actor.role.mayAssign target.role = true

instance (database : Database) (write : Write) (actorId organizationId : UUID) :
    Decidable (HoldsAuthority database write actorId organizationId) :=
  inferInstanceAs (Decidable (∃ actor ∈ database.tables.organizationMemberships,
    actor.userId = actorId ∧ actor.organizationId = organizationId ∧
      actor.role.canManageMembers = true ∧
        (∀ role ∈ write.grantedRole, actor.role.mayAssign role = true) ∧
          ∀ target ∈ database.tables.organizationMemberships,
            write.targetMembership = some target.id → actor.role.mayAssign target.role = true))

/-- The actor was neither demoted below the managing roles nor removed, and the
target was not promoted to `ADMIN` beside an acting `ADMIN`. -/
def NotOutrun (database : Database) (write : Write) (actorId organizationId : UUID) : Prop :=
  ∃ actor ∈ database.tables.organizationMemberships, actor.userId = actorId ∧
    actor.organizationId = organizationId ∧ actor.role.canManageMembers = true ∧
      ∀ target ∈ database.tables.organizationMemberships,
        write.targetMembership = some target.id → target.role = .admin → actor.role = .owner

/-- The member write that the step commits has its authority at that moment. -/
def CommitsWithAuthority (system : ConsoleSystem) (choice : ConsoleChoice) : Prop :=
  ∀ commit ∈ system.commit? choice, ∀ acting ∈ commit.process.request.memberActor,
    HoldsAuthority system.world.store commit.write acting.1 acting.2

instance (system : ConsoleSystem) (choice : ConsoleChoice) :
    Decidable (CommitsWithAuthority system choice) :=
  inferInstanceAs (Decidable (∀ commit ∈ system.commit? choice,
    ∀ acting ∈ commit.process.request.memberActor,
      HoldsAuthority system.world.store commit.write acting.1 acting.2))

/-- The member write that the step commits was not outrun. -/
def CommitsNotOutrun (system : ConsoleSystem) (choice : ConsoleChoice) : Prop :=
  ∀ commit ∈ system.commit? choice, ∀ acting ∈ commit.process.request.memberActor,
    NotOutrun system.world.store commit.write acting.1 acting.2

section Commits

variable {ports : Ports} {request : Request} {history : ConsoleHistory}
variable {world : ConsoleWorld} {write : Write} {actorId organizationId : UUID}

/-- What a member write knows of the role it grants and of its target. -/
theorem Justified.member_write (hjustified : Justified ports request history (.commit write))
    (hactor : request.memberActor = some (actorId, organizationId)) :
    (∀ role ∈ write.grantedRole, ∃ seen,
        SawManager history actorId organizationId role seen) ∧
      ∀ membershipId, write.targetMembership = some membershipId →
        ∃ userId role target,
          SawTarget history membershipId userId organizationId role target := by
  cases hjustified with
  | add hmay =>
      cases hactor
      refine ⟨?_, nofun⟩
      rintro role hrole
      rw [Write.grantedRole, Option.mem_some, hmay.role] at hrole
      exact hrole ▸ hmay.authority
  | update hmay =>
      cases hactor
      obtain ⟨actor, target, hmanager, htarget⟩ := hmay.authority
      constructor
      · intro role hrole
        rw [Write.grantedRole, Option.mem_some, hmay.role] at hrole
        exact ⟨actor, hrole ▸ hmanager⟩
      · intro membershipId hmembership
        cases hmembership
        exact ⟨_, _, target, htarget⟩
  | remove hmay =>
      cases hactor
      obtain ⟨actor, target, _, _, _, _, htarget⟩ := hmay.authority
      refine ⟨nofun, ?_⟩
      intro membershipId hmembership
      cases hmembership
      exact ⟨_, _, target, htarget⟩
  | _ => cases hactor

/-- An actor that was read as the owner is the one stored. -/
theorem SawManager.owner (hrecalls : Recalls world history) {role : OrganizationRole}
    {seen actor : OrganizationMembershipRecord}
    (hseen : SawManager history actorId organizationId role seen)
    (howner : seen.role = .owner)
    (hactor : actor ∈ world.store.tables.organizationMemberships)
    (huser : actor.userId = actorId) (horganization : actor.organizationId = organizationId) :
    actor.role = .owner := by
  obtain ⟨hsaw, hseenUser, hseenOrganization, _, _⟩ := hseen
  have hstored := hsaw.owner hrecalls howner
  have hsame : actor = seen := by
    apply world.store.constraints.organizationMembership.eq hactor hstored
    rw [huser, horganization, hseenUser, hseenOrganization]
  rw [hsame]
  exact howner

/-- Step rule: a member write has its authority exactly when it was not outrun. -/
theorem holdsAuthority_iff (hjustified : Justified ports request history (.commit write))
    (hrecalls : Recalls world history)
    (hacting : request.memberActor = some (actorId, organizationId)) :
    HoldsAuthority world.store write actorId organizationId ↔
      NotOutrun world.store write actorId organizationId := by
  obtain ⟨hgranted, htarget⟩ := hjustified.member_write hacting
  constructor
  · rintro ⟨actor, hactor, huser, horganization, hmanages, _, houtranks⟩
    refine ⟨actor, hactor, huser, horganization, hmanages, ?_⟩
    intro target hmem hid hadmin
    have hassign := houtranks target hmem hid
    rw [hadmin] at hassign
    exact OrganizationRole.mayAssign_admin_iff.mp hassign
  · rintro ⟨actor, hactor, huser, horganization, hmanages, hpeers⟩
    refine ⟨actor, hactor, huser, horganization, hmanages, ?_, ?_⟩
    · intro role hrole
      obtain ⟨seen, hseen⟩ := hgranted role hrole
      have hassign := hseen.2.2.2.2
      apply OrganizationRole.mayAssign_of_manager hmanages (ne_owner_of_mayAssign hassign)
      intro hadmin
      -- only an owner was allowed to grant this role, and owners stay
      rw [hadmin] at hassign
      have howner := OrganizationRole.mayAssign_admin_iff.mp hassign
      exact hseen.owner hrecalls howner hactor huser horganization
    · intro target hmem hid
      obtain ⟨userId, role, seen, hseen⟩ := htarget target.id hid
      have howner := hseen.not_owner hrecalls target hmem rfl
      exact OrganizationRole.mayAssign_of_manager hmanages howner (hpeers target hmem hid)

end Commits

namespace Scenario

/-- An organization with an owner 1, an administrator 7 and a viewer 8. -/
def staffed : Database where
  tables := {
    users := [⟨1, .active, "owner"⟩, ⟨7, .active, "administrator"⟩, ⟨8, .active, "viewer"⟩]
    organizations := [⟨2, "organization", "organization"⟩]
    organizationMemberships := [⟨31, 2, 1, .owner⟩, ⟨32, 2, 7, .admin⟩, ⟨33, 2, 8, .viewer⟩] }
  constraints := by decide

/-- The administrator's promotion of the viewer has read everything; the owner
demotes the administrator; then the promotion commits. -/
def outrun : List ConsoleChoice :=
  [.start (.updateOrganizationMember ⟨7, 2, 8, .moderator, [], 5⟩)] ++ turns 0 40 5 ++
    [.start (.updateOrganizationMember ⟨1, 2, 7, .viewer, [], 5⟩)] ++ turns 1 50 6 ++
      turns 0 60 1

end Scenario

end MuxivoConsole
