/-
Every account keeps a way to sign in.  Unlinking counts identities in one
transaction and deletes in another; what protects the last one is that no
statement ever deletes an e-mail identity or a password credential.
-/
import MuxivoConsole.Guarantees.AuthEvolution

namespace MuxivoConsole

open Interleaving Relational

/-- The two rows with which a user can sign in. -/
structure HasLogin (tables : Tables) (userId : UUID) : Prop where
  email : ∃ identity ∈ tables.loginIdentities, identity.userId = userId ∧
    identity.provider = StrEnum.value LoginIdentityProvider.email
  credential : ∃ credential ∈ tables.passwordCredentials, credential.userId = userId

/-- Every user can sign in. -/
def EveryUserHasLogin (tables : Tables) : Prop :=
  ∀ user ∈ tables.users, HasLogin tables user.id

namespace AccountWrite

theorem block_users (write : AccountWrite) (tables : Tables) :
    (write.block tables).1.users = tables.users := by
  cases write with
  | completeRecovery tokenHash passwordHash completedAt auditId correlationId =>
      simp only [block]
      split
      · rfl
      · split <;> rfl
  | revoke | revokeAllForUser | reauthenticate | changePassword | unlink =>
      simp only [block]
      split <;> rfl
  | _ => rfl

/-- No transaction deletes an e-mail identity. -/
theorem block_email_identities (write : AccountWrite) (tables : Tables)
    {identity : LoginIdentityRecord} (hidentity : identity ∈ tables.loginIdentities)
    (hemail : identity.provider = StrEnum.value LoginIdentityProvider.email) :
    identity ∈ (write.block tables).1.loginIdentities := by
  cases write with
  | link added auditEvent => exact List.mem_append_left _ hidentity
  | unlink identityId userId auditEvent =>
      have hkept : identity ∈ tables.loginIdentities.filter fun row =>
          !(row.id == identityId && row.userId == userId &&
            row.provider != StrEnum.value LoginIdentityProvider.email) := by
        rw [List.mem_filter, hemail]
        exact ⟨hidentity, by simp⟩
      simp only [block]
      split <;> exact hkept
  | completeRecovery tokenHash passwordHash completedAt auditId correlationId =>
      simp only [block]
      split
      · exact hidentity
      · split <;> exact hidentity
  | revoke | revokeAllForUser | reauthenticate | changePassword =>
      simp only [block]
      split <;> exact hidentity
  | _ => exact hidentity

/-- No transaction moves a credential to another user, adds one or deletes one. -/
theorem block_credential_users (write : AccountWrite) (tables : Tables) :
    (write.block tables).1.passwordCredentials.map PasswordCredentialRecord.userId =
      tables.passwordCredentials.map PasswordCredentialRecord.userId := by
  cases write with
  | completeRecovery tokenHash passwordHash completedAt auditId correlationId =>
      simp only [block]
      split
      · rfl
      · split <;> exact map_update fun _ => rfl
  | changePassword userId passwordHash changedAt auditEvent =>
      simp only [block]
      split <;> exact map_update fun _ => rfl
  | revoke | revokeAllForUser | reauthenticate | unlink =>
      simp only [block]
      split <;> rfl
  | _ => rfl

theorem block_hasLogin (write : AccountWrite) {tables : Tables} {userId : UUID}
    (hlogin : HasLogin tables userId) : HasLogin (write.block tables).1 userId := by
  obtain ⟨⟨identity, hidentity, huser, hemail⟩, ⟨credential, hcredential, howner⟩⟩ := hlogin
  refine ⟨⟨identity, write.block_email_identities tables hidentity hemail, huser, hemail⟩, ?_⟩
  have hmapped : userId ∈ (write.block tables).1.passwordCredentials.map
      PasswordCredentialRecord.userId := by
    rw [block_credential_users, ← howner]
    exact List.mem_map_of_mem hcredential
  exact List.mem_map.mp hmapped

end AccountWrite

/-- A registration brings the rows that its user needs. -/
theorem HasLogin.register {tables : Tables} {user : UserRecord}
    {identity : LoginIdentityRecord} {email : UserEmailRecord}
    {credential : PasswordCredentialRecord} {auditEvent : AuditEvent} {after : Tables}
    (hevery : EveryUserHasLogin tables) (hrows : RegistersAccount user identity credential)
    (hstatements : (Write.register user identity email credential auditEvent).statements
      tables = some after) : EveryUserHasLogin after := by
  simp only [Write.statements, Option.some.injEq] at hstatements
  subst hstatements
  intro other hother
  rcases List.mem_append.mp hother with hold | hnew
  · obtain ⟨⟨known, hknown, hknownRow⟩, ⟨kept, hkept, hkeptRow⟩⟩ := hevery other hold
    exact ⟨⟨known, List.mem_append_left _ hknown, hknownRow⟩,
      ⟨kept, List.mem_append_left _ hkept, hkeptRow⟩⟩
  · rw [List.mem_singleton.mp hnew]
    refine ⟨⟨identity, ?_, hrows.identityUser, hrows.identityProvider⟩,
      ⟨credential, ?_, hrows.credentialUser⟩⟩
    · exact List.mem_append_right _ List.mem_cons_self
    · exact List.mem_append_right _ List.mem_cons_self

/-- Step lemma: a justified write leaves every user with a login. -/
theorem AuthJustified.hasLogin {ports : AuthPorts} {request : AuthRequest}
    {history : AuthHistory} {write : AuthWrite} {store after : AuthStore}
    (hjustified : AuthJustified ports request history (.commit write))
    (hevery : EveryUserHasLogin store.database.tables) (happly : write.apply store = some after) :
    EveryUserHasLogin after.database.tables := by
  rcases hjustified.database happly with hsame | ⟨_, _, _, _, _, hrows, hstatements⟩ |
    ⟨account, _, htables⟩
  · rwa [hsame]
  · exact HasLogin.register hevery hrows hstatements
  · rw [htables]
    intro user huser
    rw [AccountWrite.block_users] at huser
    exact account.block_hasLogin (hevery user huser)

/-- Run lemma, from any database in which every user has a login. -/
theorem everyUserHasLogin_after (ports : AuthPorts) {store : AuthStore}
    (hevery : EveryUserHasLogin store.database.tables) (choices : List AuthChoice) :
    EveryUserHasLogin (store.after ports choices).world.store.database.tables := by
  refine System.stores_induction (P := fun store : AuthStore =>
    EveryUserHasLogin store.database.tables) store.idle hevery ?_ choices
  intro before choice commit hcommit hearlier
  have hjustified := (auth_holds ports store before).guard_commit hcommit
  obtain ⟨_, _, happly⟩ := System.commit?_eq_some hcommit
  exact AuthJustified.hasLogin hjustified hearlier happly

/-- In every state that any interleaving of the use cases reaches from empty stores,
every user row has an e-mail identity and a password credential. -/
theorem every_user_keeps_a_login (ports : AuthPorts) (choices : List AuthChoice) :
    EveryUserHasLogin (AuthStore.empty.after ports choices).world.store.database.tables :=
  everyUserHasLogin_after ports (fun _ huser => absurd huser List.not_mem_nil) choices

end MuxivoConsole
