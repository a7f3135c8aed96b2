/-
The platform subject of a user.  Its reader asks for at most one row of a user and a
provider; the schema makes the provider and the subject unique, so nothing but the
order of the links keeps a user from a second subject.
-/
import MuxivoConsole.Guarantees.AuthEvolution

namespace MuxivoConsole

open Interleaving Relational

/-- At most one identity of each user and provider, so that the platform subject that a
call to a Control API needs is defined. -/
structure PlatformSubjects (database : Database) : Prop where
  unique : UniqueOn (fun row => (row.userId, row.provider)) database.tables.loginIdentities
  defined : ∀ userId provider, ∃ subject,
    database.findProviderSubject userId provider = .ok subject

/-- The identity that a transaction links. -/
def AuthWrite.linked : AuthWrite → Option LoginIdentityRecord
  | account (.link identity _) => some identity
  | _ => none

/-- When the step links an identity, its user has none of the provider. -/
def LinksFirst (ports : AuthPorts) (store : AuthStore) (before : List AuthChoice)
    (choice : AuthChoice) : Prop :=
  ∀ commit ∈ (store.after ports before).commit? choice, ∀ identity ∈ commit.write.linked,
    ∀ row ∈ (store.after ports before).world.store.database.tables.loginIdentities,
      (row.userId, row.provider) ≠ (identity.userId, identity.provider)

section Transactions

/-- A table with one row of each user and provider answers every reader. -/
theorem PlatformSubjects.of_unique {database : Database}
    (hunique : UniqueOn (fun row => (row.userId, row.provider))
      database.tables.loginIdentities) : PlatformSubjects database := by
  refine ⟨hunique, ?_⟩
  intro userId provider
  apply findProviderSubject_ok.mpr
  have hkey : ∀ row : LoginIdentityRecord, row.ofUser userId provider = true →
      (row.userId, row.provider) = (userId, StrEnum.value provider) := by
    intro row hrow
    simpa [LoginIdentityRecord.ofUser] using hrow
  exact rowcount_le_one hunique hkey

/-- The identities after a transaction: some of those before, and the linked one. -/
theorem AccountWrite.identities_block (write : AccountWrite) (tables : Tables) :
    (write.block tables).1.loginIdentities.Sublist
      (tables.loginIdentities ++ (AuthWrite.account write).linked.toList) := by
  have hsame : tables.loginIdentities.Sublist
      (tables.loginIdentities ++ (AuthWrite.account write).linked.toList) :=
    List.sublist_append_left _ _
  cases write with
  | link identity auditEvent => exact List.Sublist.refl _
  | unlink identityId userId auditEvent =>
      simp only [block]
      split <;> exact List.filter_sublist.trans hsame
  | completeRecovery tokenHash passwordHash completedAt auditId correlationId =>
      simp only [block]
      split
      · exact hsame
      · split <;> exact hsame
  | revoke | revokeAllForUser | reauthenticate | changePassword =>
      simp only [block]
      split <;> exact hsame
  | _ => exact hsame

/-- A registered user is new, so nobody has an identity for them. -/
theorem identity_of_new_user {before after : Database} {user : UserRecord}
    (husers : after.tables.users = before.tables.users ++ [user]) {row : LoginIdentityRecord}
    (hrow : row ∈ before.tables.loginIdentities) : row.userId ≠ user.id := by
  obtain ⟨owner, howner, hid⟩ := before.constraints.identityUser.exists hrow
  have hfresh := after.constraints.userId
  rw [husers] at hfresh
  exact hid ▸ hfresh.fresh howner

/-- Step lemma: a justified write keeps one identity of each user and provider unless
it links a second one. -/
theorem AuthJustified.unique_identities {ports : AuthPorts} {request : AuthRequest}
    {history : AuthHistory} {write : AuthWrite} {store after : AuthStore}
    (hjustified : AuthJustified ports request history (.commit write))
    (happly : write.apply store = some after)
    (hunique : UniqueOn (fun row => (row.userId, row.provider))
      store.database.tables.loginIdentities)
    (hfirst : ∀ identity ∈ write.linked, ∀ row ∈ store.database.tables.loginIdentities,
      (row.userId, row.provider) ≠ (identity.userId, identity.provider)) :
    UniqueOn (fun row => (row.userId, row.provider)) after.database.tables.loginIdentities := by
  rcases hjustified.database happly with hsame | ⟨user, identity, email, credential,
    auditEvent, hrows, hstatements⟩ | ⟨account, rfl, htables⟩
  · rwa [hsame]
  · simp only [Write.statements, Option.some.injEq] at hstatements
    have husers : after.database.tables.users = store.database.tables.users ++ [user] := by
      rw [← hstatements]
    have hidentities : after.database.tables.loginIdentities =
        store.database.tables.loginIdentities ++ [identity] := by
      rw [← hstatements]
    rw [hidentities, uniqueOn_snoc]
    refine ⟨hunique, ?_⟩
    intro row hrow hkey
    have hnew := identity_of_new_user husers hrow
    rw [Prod.mk.injEq, hrows.identityUser] at hkey
    exact hnew hkey.1
  · rw [htables]
    apply UniqueOn.sublist ?_ (account.identities_block store.database.tables)
    cases hlinked : (AuthWrite.account account).linked with
    | none =>
        rw [Option.toList_none, List.append_nil]
        exact hunique
    | some identity =>
        rw [Option.toList_some, uniqueOn_snoc]
        exact ⟨hunique, hfirst identity hlinked⟩

/-- A second link of a provider is stored beside the first one. -/
theorem not_unique_of_link {write : AuthWrite} {store after : AuthStore}
    {identity row : LoginIdentityRecord} (happly : write.apply store = some after)
    (hlinked : write.linked = some identity)
    (hrow : row ∈ store.database.tables.loginIdentities)
    (hkey : (row.userId, row.provider) = (identity.userId, identity.provider)) :
    ¬ UniqueOn (fun row => (row.userId, row.provider))
      after.database.tables.loginIdentities := by
  intro hunique
  cases write with
  | account write =>
      have htables := AuthWrite.apply_account happly
      cases write with
      | link linked auditEvent =>
          cases hlinked
          rw [htables] at hunique
          exact (uniqueOn_snoc.mp hunique).2 row hrow hkey
      | _ => cases hlinked
  | _ => cases hlinked

end Transactions

/-- Run lemma: a run in which every link is the first of its user and provider. -/
theorem unique_identities_after {ports : AuthPorts} {store : AuthStore}
    (hunique : UniqueOn (fun row => (row.userId, row.provider))
      store.database.tables.loginIdentities) {choices : List AuthChoice}
    (hfirst : System.EveryStep (LinksFirst ports store) choices) :
    UniqueOn (fun row => (row.userId, row.provider))
      (store.after ports choices).world.store.database.tables.loginIdentities := by
  induction choices using List.reverseRecOn with
  | nil => exact hunique
  | append_singleton choices choice ih =>
      have hearlier := ih hfirst.first
      rw [AuthStore.after_snoc]
      cases hcommit : (store.after ports choices).commit? choice with
      | none => rwa [System.step_store_of_no_commit hcommit]
      | some commit =>
          rw [System.step_store_of_commit hcommit]
          have hjustified : AuthJustified ports commit.process.request commit.process.history
              (.commit commit.write) := (auth_holds ports store choices).guard_commit hcommit
          obtain ⟨_, _, happly⟩ := System.commit?_eq_some hcommit
          exact hjustified.unique_identities happly hearlier
            (hfirst choices choice [] rfl commit hcommit)

/-- In every run of the use cases from empty stores: each state that the run reaches has
at most one identity of each user and provider, and a defined platform subject, if and
only if each link is the first of its user and provider. -/
theorem one_platform_subject_iff (ports : AuthPorts) (choices : List AuthChoice) :
    (∀ before, before <+: choices →
      PlatformSubjects (AuthStore.empty.after ports before).world.store.database) ↔
        System.EveryStep (LinksFirst ports .empty) choices := by
  constructor
  · intro hsubjects before choice rest hsplit commit hcommit identity hlinked row hrow hkey
    have hafter := hsubjects (before ++ [choice]) ⟨rest, by simp [hsplit]⟩
    obtain ⟨_, _, happly⟩ := System.commit?_eq_some hcommit
    have hunique := hafter.unique
    rw [AuthStore.after_snoc, System.step_store_of_commit hcommit] at hunique
    exact not_unique_of_link happly hlinked hrow hkey hunique
  · rintro hfirst before ⟨rest, rfl⟩
    exact PlatformSubjects.of_unique (unique_identities_after uniqueOn_nil hfirst.first)

namespace Scenario

/-- A newcomer proves their address and links two Discord accounts. -/
def twoSubjects : List AuthChoice :=
  [.start (.startEmailPasswordRegistration
    ⟨address 'a', "first-password", "founder", 6⟩)] ++ authTurns 0 10 10 ++
      [.start (.verifyEmailPasswordRegistration ⟨"token-11", "123456", 6⟩)] ++
        authTurns 1 30 10 ++
          [.start (.linkVerifiedIdentity ⟨34, .discord, "subject-1", 6⟩)] ++
            authTurns 2 50 4 ++
              [.start (.linkVerifiedIdentity ⟨34, .discord, "subject-2", 6⟩)] ++
                authTurns 3 60 4

end Scenario

/-- A user who links two subjects of one provider has two rows, and the reader of the
subject fails. -/
theorem two_platform_subjects :
    ¬ ∀ before, before <+: Scenario.twoSubjects →
      PlatformSubjects
        (AuthStore.empty.after Scenario.authPorts before).world.store.database := by
  intro hsubjects
  have hunique := (hsubjects Scenario.twoSubjects List.prefix_rfl).unique
  revert hunique
  decide +kernel

end MuxivoConsole
