/-
A password change and the credential that it proved.  The credential is read in
one transaction and overwritten in another, keyed by the user alone; the hash
that goes is the hash that was proved as long as nobody writes the credential in
between.
-/
import MuxivoConsole.Guarantees.Recovery

namespace MuxivoConsole

open Interleaving Relational

/-- The user whose password a write changes. -/
def AuthWrite.changedUser : AuthWrite → Option UUID
  | account (.changePassword userId _ _ _) => some userId
  | _ => none

/-- The hash against which a password change verified the current password: the one
that its latest read shows. -/
def provedHash (ports : AuthPorts) (process : AuthProcess) : Option String :=
  match process.request with
  | .changeEmailPassword command =>
      (reads process.history).getLast?.bind fun (_, store) =>
        (store.database.credentialForUser command.principal.userId).bind fun credential =>
          if ports.verifyPassword credential.fields.passwordHash command.currentPassword then
            some credential.fields.passwordHash
          else none
  | _ => none

/-- A password change that commits overwrites the hash that it proved. -/
def ReplacesProved (ports : AuthPorts) (system : AuthSystem) (choice : AuthChoice) : Prop :=
  ∀ commit ∈ system.commit? choice, ∀ userId ∈ commit.write.changedUser,
    ∀ row ∈ system.world.store.database.tables.passwordCredentials, row.userId = userId →
      provedHash ports commit.process = some row.passwordHash

instance (ports : AuthPorts) (system : AuthSystem) (choice : AuthChoice) :
    Decidable (ReplacesProved ports system choice) :=
  inferInstanceAs (Decidable (∀ commit ∈ system.commit? choice,
    ∀ userId ∈ commit.write.changedUser,
      ∀ row ∈ system.world.store.database.tables.passwordCredentials, row.userId = userId →
        provedHash ports commit.process = some row.passwordHash))

/-- A change that writes the credential of the user. -/
def writesCredential (userId : UUID) (change : AuthStore × AuthCommit) : Bool :=
  match change.2.write with
  | .account (.changePassword changed _ _ _) => changed == userId
  | .account (.completeRecovery tokenHash passwordHash completedAt auditId correlationId) =>
      change.1.completed tokenHash passwordHash completedAt auditId correlationId == some userId
  | _ => false

/-- When the step commits a password change, nothing has written the credential since
the change read it. -/
def ChangesUndisturbed (ports : AuthPorts) (store : AuthStore) (before : List AuthChoice)
    (choice : AuthChoice) : Prop :=
  ∀ commit ∈ (store.after ports before).commit? choice,
    ∀ userId ∈ commit.write.changedUser, ∀ read ∈ (reads commit.process.history).getLast?,
      ∀ change ∈ (store.after ports (before.take read.1)).changes (AuthRequest.program ports)
        (before.drop read.1), writesCredential userId change = false

instance (ports : AuthPorts) (store : AuthStore) (before : List AuthChoice)
    (choice : AuthChoice) : Decidable (ChangesUndisturbed ports store before choice) :=
  inferInstanceAs (Decidable (∀ commit ∈ (store.after ports before).commit? choice,
    ∀ userId ∈ commit.write.changedUser, ∀ read ∈ (reads commit.process.history).getLast?,
      ∀ change ∈ (store.after ports (before.take read.1)).changes (AuthRequest.program ports)
        (before.drop read.1), writesCredential userId change = false))

section Rows

variable {userId : UUID} {row : PasswordCredentialRecord}

/-- A statement keyed by somebody else leaves the credential alone. -/
theorem mem_update_credential {rows : List PasswordCredentialRecord} {other : UUID}
    {change : PasswordCredentialRecord → PasswordCredentialRecord} (hrow : row ∈ rows)
    (hne : row.userId ≠ other) : row ∈ update (·.userId == other) change rows :=
  mem_update.mpr (Or.inl ⟨hrow, by simpa using hne⟩)

/-- A transaction on accounts that does not write the user's credential leaves it as
it is. -/
theorem AccountWrite.credential_block {write : AccountWrite} {tables : Tables}
    (hunique : tables.Constraints) (hrow : row ∈ tables.passwordCredentials)
    (hchange : ∀ passwordHash changedAt auditEvent,
      write ≠ .changePassword row.userId passwordHash changedAt auditEvent)
    (hcomplete : ∀ tokenHash passwordHash completedAt auditId correlationId,
      write = .completeRecovery tokenHash passwordHash completedAt auditId correlationId →
        (block tables (.completeRecovery tokenHash passwordHash completedAt auditId
          correlationId)).2 ≠ some row.userId) :
    row ∈ (write.block tables).1.passwordCredentials := by
  cases write with
  | changePassword changed passwordHash changedAt auditEvent =>
      have hne : row.userId ≠ changed := by
        intro heq
        exact hchange passwordHash changedAt auditEvent (by rw [heq])
      simp only [block]
      split <;> exact mem_update_credential hrow hne
  | completeRecovery tokenHash passwordHash completedAt auditId correlationId =>
      have hreturned := hcomplete tokenHash passwordHash completedAt auditId correlationId rfl
      simp only [block] at hreturned ⊢
      split
      · exact hrow
      · rename_i recovery hfound
        have hne : row.userId ≠ recovery.userId := by
          intro heq
          have hone : rowcount (·.userId == recovery.userId) tables.passwordCredentials = 1 := by
            have hmost : rowcount (·.userId == recovery.userId)
                tables.passwordCredentials ≤ 1 :=
              rowcount_le_one hunique.credentialUserId fun row hkey => beq_iff_eq.mp hkey
            have hleast : 0 < tables.passwordCredentials.countP (·.userId == recovery.userId) :=
              List.countP_pos_iff.mpr ⟨row, hrow, by simpa using heq⟩
            rw [rowcount] at hmost ⊢
            omega
          simp [hfound, hone, heq] at hreturned
        split <;> exact mem_update_credential hrow hne
  | revoke | revokeAllForUser | reauthenticate | unlink =>
      simp only [block]
      split <;> exact hrow
  | _ => exact hrow

/-- Step lemma: a commit that does not write the user's credential leaves it as it is. -/
theorem credential_step {ports : AuthPorts} {store : AuthStore} {choices : List AuthChoice}
    {choice : AuthChoice} {commit : AuthCommit}
    (hcommit : (store.after ports choices).commit? choice = some commit)
    (hwrites : writesCredential row.userId
      ((store.after ports choices).world.store, commit) = false)
    (hrow : row ∈ (store.after ports choices).world.store.database.tables.passwordCredentials) :
    row ∈ commit.after.database.tables.passwordCredentials := by
  have hjustified : AuthJustified ports commit.process.request commit.process.history
      (.commit commit.write) := (auth_holds ports store choices).guard_commit hcommit
  obtain ⟨_, _, happly⟩ := System.commit?_eq_some hcommit
  obtain ⟨process, write, after⟩ := commit
  dsimp only at hjustified happly hwrites ⊢
  generalize (store.after ports choices).world.store = found at happly hwrites hrow
  rcases hjustified.database happly with hsame | ⟨_, _, _, _, _, _, hstatements⟩ |
    ⟨account, rfl, htables⟩
  · rwa [hsame]
  · simp only [Write.statements, Option.some.injEq] at hstatements
    rw [← hstatements]
    exact List.mem_append_left _ hrow
  · rw [htables]
    refine AccountWrite.credential_block found.database.constraints hrow ?_ ?_
    · rintro passwordHash changedAt auditEvent rfl
      simp [writesCredential] at hwrites
    · rintro tokenHash passwordHash completedAt auditId correlationId rfl hreturned
      rw [← completed_of_apply happly] at hreturned
      simp [writesCredential, hreturned] at hwrites

/-- A credential that nothing has written since an instant is still stored. -/
theorem credential_kept {ports : AuthPorts} {store : AuthStore} {choices : List AuthChoice}
    {moment : Nat}
    (hrow : row ∈ (store.idle.storeAt (AuthRequest.program ports) choices
      moment).database.tables.passwordCredentials)
    (hkept : ∀ change ∈ (store.after ports (choices.take moment)).changes
      (AuthRequest.program ports) (choices.drop moment),
        writesCredential row.userId change = false) :
    row ∈ (store.after ports choices).world.store.database.tables.passwordCredentials := by
  have hlater := @System.store_of_changes auth _ _ _ _ (AuthRequest.program ports)
    (fun stored : AuthStore => row ∈ stored.database.tables.passwordCredentials)
    (writesCredential row.userId) (store.after ports (choices.take moment)) hrow
    (choices.drop moment) ?_ hkept
  · rwa [← System.run_append store.idle, List.take_append_drop] at hlater
  · intro before choice commit hcommit hwrites hstored
    rw [← System.run_append store.idle] at hcommit hwrites hstored
    exact credential_step hcommit hwrites hstored

end Rows

/-- In every run, over any two stores, in which each password change commits with its
credential undisturbed since it was read, each one overwrites the hash that it proved. -/
theorem password_change_replaces_proved (ports : AuthPorts) (store : AuthStore)
    (choices : List AuthChoice)
    (hundisturbed : System.EveryStep (ChangesUndisturbed ports store) choices) :
    store.Along ports (ReplacesProved ports) choices := by
  apply (System.along_iff store.idle choices).mpr
  intro before choice rest hsplit commit hcommit userId huser row hrow howner
  have hundisturbed := hundisturbed before choice rest hsplit commit hcommit userId huser
  have hjustified : AuthJustified ports commit.process.request commit.process.history
      (.commit commit.write) := (auth_holds ports store before).guard_commit hcommit
  obtain ⟨hprocess, _, _⟩ := System.commit?_eq_some hcommit
  obtain ⟨process, write, after⟩ := commit
  dsimp only at hjustified huser hundisturbed hprocess ⊢
  generalize hrequest : process.request = request at hjustified
  cases hjustified with
  | changePassword hmay =>
      cases huser
      obtain ⟨moment, past, credential, hlast, hread, hverified⟩ := hmay.proved
      have hstored := (read_storeAt before process hprocess moment past
        (List.mem_of_getLast? hlast)).2
      obtain ⟨proved, hproved, hprovedUser, hprovedHash⟩ := credentialForUser_eq_some hread
      have hkept := hundisturbed (moment, past) hlast
      rw [← hprovedUser] at hkept howner
      rw [hstored] at hproved
      have hstill := credential_kept hproved hkept
      have hsame : row = proved :=
        (store.after ports before).world.store.database.constraints.credentialUserId.eq hrow
          hstill howner
      have hlastRead : (reads process.history).getLast? = some (moment, past) := hlast
      simp [provedHash, hrequest, hlastRead, hread, hverified, hsame, hprovedHash]
  | _ => cases huser

namespace Scenario

/-- The user, with a session that just proved its password. -/
def recent : BrowserSessionPrincipal :=
  ⟨1, 4, .recentAuthentication, some 0⟩

/-- One password change, from its start to its end. -/
def wholeChange : List AuthChoice :=
  [.start (.changeEmailPassword ⟨recent, "first-password", "other-password", 5⟩)] ++
    authTurns 0 10 7

/-- A password change has read everything; another one runs as a whole; then the first
one commits. -/
def crossedChanges : List AuthChoice :=
  [.start (.changeEmailPassword ⟨recent, "first-password", "other-password", 5⟩)] ++
    authTurns 0 10 6 ++
      [.start (.changeEmailPassword ⟨recent, "first-password", "newer-password", 5⟩)] ++
        authTurns 1 20 7 ++ authTurns 0 30 1

end Scenario

/-- A change that runs alone replaces what it proved. -/
theorem password_change_replaces_proved_alone :
    Scenario.signedUp.Along Scenario.authPorts (ReplacesProved Scenario.authPorts)
      Scenario.wholeChange :=
  password_change_replaces_proved _ _ _ (by decide +kernel)

/-- A change verified against the first password overwrites the second one. -/
theorem password_change_replaces_another :
    ¬ Scenario.signedUp.Along Scenario.authPorts (ReplacesProved Scenario.authPorts)
      Scenario.crossedChanges := by
  decide +kernel

end MuxivoConsole
