/-
Password recovery in one transaction.  A token rotates the credential at most
once for each transaction that was created for it, and a completion does all of
its work or none.  The early return in the middle of the block leaves nothing
behind, because every user has exactly one credential.
-/
import MuxivoConsole.Guarantees.LoginMethods

namespace MuxivoConsole

open Interleaving Relational

/-- What `complete` returns when it runs on these stores; `None` stands for an
`IntegrityError` too. -/
def AuthStore.completed (store : AuthStore) (tokenHash passwordHash : String)
    (completedAt : Instant) (auditId correlationId : UUID) : Option UUID :=
  let write :=
    AccountWrite.completeRecovery tokenHash passwordHash completedAt auditId correlationId
  match write.apply store.database with
  | none => none
  | some _ => (write.block store.database.tables).2

/-- A completion that returns a user has consumed the transaction before its expiry,
replaced the password hash, left no session active and appended one fact, and nothing
else. -/
structure Recovered (before after : Tables) (tokenHash passwordHash : String)
    (completedAt : Instant) (auditId correlationId userId : UUID) : Prop where
  transaction : ∃ recovery ∈ before.passwordRecoveryTransactions,
    recovery.tokenHash = tokenHash ∧ recovery.userId = userId ∧ recovery.consumedAt = none ∧
      completedAt < recovery.expiresAt ∧
        { recovery with consumedAt := some completedAt } ∈ after.passwordRecoveryTransactions
  transactions : after.passwordRecoveryTransactions =
    update (·.openAt tokenHash completedAt)
      (fun row => { row with consumedAt := some completedAt })
      before.passwordRecoveryTransactions
  credential : ∃ credential ∈ before.passwordCredentials, credential.userId = userId ∧
    credential.rotated passwordHash completedAt ∈ after.passwordCredentials
  credentials : after.passwordCredentials =
    update (·.userId == userId) (·.rotated passwordHash completedAt) before.passwordCredentials
  revoked : ∀ row ∈ after.authSessions, row.activeFor userId completedAt = false
  sessions : after.authSessions = update (·.activeFor userId completedAt)
    (fun row => { row with revokedAt := some completedAt }) before.authSessions
  audit : after.auditEvents =
    before.auditEvents ++ [passwordRecovered auditId correlationId userId]
  others : { after with
    passwordRecoveryTransactions := before.passwordRecoveryTransactions
    passwordCredentials := before.passwordCredentials
    authSessions := before.authSessions
    auditEvents := before.auditEvents } = before

/-- A change that rotates a credential for a raw token with this hash. -/
def rotates (tokenHash : String) (change : AuthStore × AuthCommit) : Bool :=
  match change.2.write with
  | .account (.completeRecovery asked passwordHash completedAt auditId correlationId) =>
      asked == tokenHash &&
        (change.1.completed asked passwordHash completedAt auditId correlationId).isSome
  | _ => false

/-- A change that creates a recovery transaction for a raw token with this hash. -/
def createsRecovery (tokenHash : String) (change : AuthStore × AuthCommit) : Bool :=
  match change.2.write with
  | .account (.createRecovery transaction _) => transaction.tokenHash == tokenHash
  | _ => false

/-- The transactions that wait for a raw token with this hash. -/
def AuthStore.waiting (tokenHash : String) (store : AuthStore) : Nat :=
  rowcount (fun row => row.tokenHash == tokenHash && row.consumedAt.isNone)
    store.database.tables.passwordRecoveryTransactions

section Blocks

variable {tables : Tables} {tokenHash passwordHash : String} {completedAt : Instant}
variable {auditId correlationId : UUID}

/-- Every user has exactly one credential. -/
theorem rowcount_credential (hlogin : EveryUserHasLogin tables)
    (hconstraints : tables.Constraints) {recovery : PasswordRecoveryTransactionRecord}
    (hrecovery : recovery ∈ tables.passwordRecoveryTransactions) :
    rowcount (·.userId == recovery.userId) tables.passwordCredentials = 1 := by
  obtain ⟨user, huser, hid⟩ := hconstraints.recoveryUser.exists hrecovery
  obtain ⟨credential, hcredential, howner⟩ := (hlogin user huser).credential
  have hmost : rowcount (·.userId == recovery.userId) tables.passwordCredentials ≤ 1 :=
    rowcount_le_one hconstraints.credentialUserId fun row hrow => beq_iff_eq.mp hrow
  have hleast : 0 < tables.passwordCredentials.countP (·.userId == recovery.userId) := by
    rw [List.countP_pos_iff]
    exact ⟨credential, hcredential, by simp [howner, hid]⟩
  rw [rowcount] at hmost ⊢
  omega

/-- A completion that returns nothing has changed no row. -/
theorem completeRecovery_none (hlogin : EveryUserHasLogin tables)
    (hconstraints : tables.Constraints)
    (hreturned : (AccountWrite.block tables (.completeRecovery tokenHash passwordHash
      completedAt auditId correlationId)).2 = none) :
    (AccountWrite.block tables (.completeRecovery tokenHash passwordHash completedAt auditId
      correlationId)).1 = tables := by
  simp only [AccountWrite.block] at hreturned ⊢
  cases hfound : tables.passwordRecoveryTransactions.find? (·.openAt tokenHash completedAt) with
  | none =>
      have hnone : rowcount (·.openAt tokenHash completedAt)
          tables.passwordRecoveryTransactions = 0 := by
        rw [rowcount, List.countP_eq_zero]
        simpa using List.find?_eq_none.mp hfound
      rw [update_eq_self hnone]
  | some recovery =>
      have hone := rowcount_credential hlogin hconstraints (List.mem_of_find?_eq_some hfound)
      simp [hfound, hone] at hreturned

/-- A completion that returns a user has done all of its work. -/
theorem completeRecovery_some {userId : UUID}
    (hreturned : (AccountWrite.block tables (.completeRecovery tokenHash passwordHash
      completedAt auditId correlationId)).2 = some userId) :
    Recovered tables (AccountWrite.block tables (.completeRecovery tokenHash passwordHash
      completedAt auditId correlationId)).1 tokenHash passwordHash completedAt auditId
      correlationId userId := by
  simp only [AccountWrite.block] at hreturned ⊢
  cases hfound : tables.passwordRecoveryTransactions.find? (·.openAt tokenHash completedAt) with
  | none => simp [hfound] at hreturned
  | some recovery =>
      by_cases hone : rowcount (·.userId == recovery.userId) tables.passwordCredentials = 1
      · simp only [hfound, hone, ne_eq, not_true_eq_false, ↓reduceIte, Option.some.injEq]
          at hreturned ⊢
        subst hreturned
        have hmem := List.mem_of_find?_eq_some hfound
        have hopen : recovery.openAt tokenHash completedAt = true := by
          simpa using List.find?_some hfound
        have hparts := hopen
        simp only [PasswordRecoveryTransactionRecord.openAt, Bool.and_eq_true, beq_iff_eq,
          Option.isNone_iff_eq_none, decide_eq_true_eq] at hparts
        obtain ⟨credential, hcredential, howner⟩ := exists_of_rowcount_eq_one hone
        refine ⟨?_, rfl, ?_, rfl, ?_, rfl, rfl, rfl⟩
        · refine ⟨recovery, hmem, hparts.1.1, rfl, hparts.1.2, hparts.2, ?_⟩
          exact mem_update.mpr (Or.inr ⟨recovery, hmem, hopen, rfl⟩)
        · refine ⟨credential, hcredential, beq_iff_eq.mp howner, ?_⟩
          exact mem_update.mpr (Or.inr ⟨credential, hcredential, howner, rfl⟩)
        · intro row hrow
          rcases mem_update.mp hrow with ⟨_, hinactive⟩ | ⟨old, _, _, rfl⟩
          · exact hinactive
          · simp [AuthSessionRecord.activeFor]
      · simp [hfound, hone] at hreturned

/-- A transaction on accounts brings at most the one waiting token that it creates. -/
theorem AccountWrite.waiting_block (write : AccountWrite) (tokenHash : String)
    (tables : Tables) :
    rowcount (fun row => row.tokenHash == tokenHash && row.consumedAt.isNone)
        (write.block tables).1.passwordRecoveryTransactions ≤
      rowcount (fun row => row.tokenHash == tokenHash && row.consumedAt.isNone)
          tables.passwordRecoveryTransactions +
        (match write with
          | .createRecovery transaction _ => transaction.tokenHash == tokenHash
          | _ => false).toNat := by
  cases write with
  | createRecovery transaction auditEvent =>
      simp only [block, rowcount, List.countP_append, List.countP_singleton]
      by_cases htoken : transaction.tokenHash = tokenHash
      · simp only [htoken, beq_self_eq_true, Bool.true_and, Bool.toNat_true]
        split <;> omega
      · simp [htoken]
  | completeRecovery asked passwordHash completedAt auditId correlationId =>
      have hupdated : rowcount (fun row => row.tokenHash == tokenHash && row.consumedAt.isNone)
          (update (·.openAt asked completedAt)
            (fun row => { row with consumedAt := some completedAt })
            tables.passwordRecoveryTransactions) ≤
          rowcount (fun row => row.tokenHash == tokenHash && row.consumedAt.isNone)
            tables.passwordRecoveryTransactions :=
        rowcount_update_le fun row hselected => by simp at hselected
      simp only [block]
      split
      · exact hupdated
      · split <;> exact hupdated
  | deleteConsumedOrExpiredPasswordRecoveryTransactions before =>
      exact List.filter_sublist.countP_le
  | revoke | revokeAllForUser | reauthenticate | changePassword | unlink =>
      simp only [block]
      split <;> exact Nat.le_refl _
  | _ => exact Nat.le_refl _

/-- A rotation uses a waiting token up. -/
theorem Recovered.waiting {before after : Tables} {userId : UUID}
    (hrecovered : Recovered before after tokenHash passwordHash completedAt auditId
      correlationId userId) :
    rowcount (fun row => row.tokenHash == tokenHash && row.consumedAt.isNone)
        after.passwordRecoveryTransactions + 1 ≤
      rowcount (fun row => row.tokenHash == tokenHash && row.consumedAt.isNone)
        before.passwordRecoveryTransactions := by
  obtain ⟨recovery, hmem, htoken, _, hunconsumed, hexpiry, _⟩ := hrecovered.transaction
  have hcount := @rowcount_update_add _ before.passwordRecoveryTransactions
    (·.openAt tokenHash completedAt) (fun row => { row with consumedAt := some completedAt })
    (fun row => row.tokenHash == tokenHash && row.consumedAt.isNone)
    (fun row hopen => by
      simp only [PasswordRecoveryTransactionRecord.openAt, Bool.and_eq_true] at hopen ⊢
      exact hopen.1)
    (fun row _ => by simp)
  have hleast : 0 < before.passwordRecoveryTransactions.countP
      (·.openAt tokenHash completedAt) := by
    rw [List.countP_pos_iff]
    refine ⟨recovery, hmem, ?_⟩
    simp [PasswordRecoveryTransactionRecord.openAt, htoken, hunconsumed, hexpiry]
  rw [hrecovered.transactions]
  simp only [rowcount] at hcount ⊢
  omega

end Blocks

section Completions

variable {store : AuthStore} {tokenHash passwordHash : String} {completedAt : Instant}
variable {auditId correlationId : UUID}

/-- What the method returns when its transaction commits. -/
theorem completed_of_apply {after : AuthStore}
    (happly : (AuthWrite.account (.completeRecovery tokenHash passwordHash completedAt auditId
      correlationId)).apply store = some after) :
    store.completed tokenHash passwordHash completedAt auditId correlationId =
      (AccountWrite.block store.database.tables (.completeRecovery tokenHash passwordHash
        completedAt auditId correlationId)).2 := by
  simp only [AuthWrite.apply, Option.map_eq_some_iff] at happly
  obtain ⟨database, hdatabase, _⟩ := happly
  simp [AuthStore.completed, hdatabase]

theorem recovered_of_apply {after : AuthStore} {userId : UUID}
    (happly : (AuthWrite.account (.completeRecovery tokenHash passwordHash completedAt auditId
      correlationId)).apply store = some after)
    (hcompleted : store.completed tokenHash passwordHash completedAt auditId correlationId =
      some userId) :
    Recovered store.database.tables after.database.tables tokenHash passwordHash completedAt
      auditId correlationId userId := by
  rw [completed_of_apply happly] at hcompleted
  rw [AuthWrite.apply_account happly]
  exact completeRecovery_some hcompleted

/-- A completion that returns nothing leaves both stores as they are. -/
theorem unchanged_of_apply {after : AuthStore}
    (hlogin : EveryUserHasLogin store.database.tables)
    (happly : (AuthWrite.account (.completeRecovery tokenHash passwordHash completedAt auditId
      correlationId)).apply store = some after)
    (hcompleted : store.completed tokenHash passwordHash completedAt auditId correlationId =
      none) : after = store := by
  have hreturned := completed_of_apply happly
  rw [hcompleted] at hreturned
  apply AuthWrite.unchanged_of_block happly
  exact completeRecovery_none hlogin store.database.constraints hreturned.symm

end Completions

/-- Step lemma: a rotation uses a waiting token up, and only a creation brings one. -/
theorem waiting_step {ports : AuthPorts} {store : AuthStore} {choices : List AuthChoice}
    {choice : AuthChoice} {commit : AuthCommit} (tokenHash : String)
    (hcommit : (store.after ports choices).commit? choice = some commit) :
    commit.after.waiting tokenHash +
        (rotates tokenHash ((store.after ports choices).world.store, commit)).toNat ≤
      (store.after ports choices).world.store.waiting tokenHash +
        (createsRecovery tokenHash ((store.after ports choices).world.store, commit)).toNat := by
  have hjustified : AuthJustified ports commit.process.request commit.process.history
      (.commit commit.write) := (auth_holds ports store choices).guard_commit hcommit
  obtain ⟨_, _, happly⟩ := System.commit?_eq_some hcommit
  generalize (store.after ports choices).world.store = found at happly ⊢
  obtain ⟨process, write, after⟩ := commit
  by_cases hrotates : rotates tokenHash (found, ⟨process, write, after⟩) = true
  · rw [hrotates]
    unfold rotates at hrotates
    split at hrotates
    · rename_i asked passwordHash completedAt auditId correlationId hwrite
      dsimp only at hwrite
      subst hwrite
      simp only [Bool.and_eq_true, beq_iff_eq, Option.isSome_iff_exists] at hrotates
      obtain ⟨rfl, userId, hcompleted⟩ := hrotates
      have hwaiting := (recovered_of_apply happly hcompleted).waiting
      exact Nat.le_trans hwaiting (Nat.le_add_right _ _)
    · cases hrotates
  · rw [Bool.not_eq_true] at hrotates
    rw [hrotates]
    have hsame : after.database.tables.passwordRecoveryTransactions =
        found.database.tables.passwordRecoveryTransactions →
          after.waiting tokenHash ≤ found.waiting tokenHash := by
      intro hrows
      rw [AuthStore.waiting, AuthStore.waiting, hrows]
    rcases hjustified.database happly with hdatabase | ⟨_, _, _, _, _, _, hstatements⟩ |
      ⟨account, rfl, htables⟩
    · have hle := hsame (by rw [hdatabase])
      simp only [Bool.toNat_false]
      omega
    · simp only [Write.statements, Option.some.injEq] at hstatements
      have hle := hsame (by rw [← hstatements])
      simp only [Bool.toNat_false]
      omega
    · have hle := account.waiting_block tokenHash found.database.tables
      rw [← htables] at hle
      cases account <;> simpa [AuthStore.waiting, createsRecovery] using hle

/-- Every completion that is about to run does all of its work when it returns a user,
and nothing when it returns none. -/
def CompletesWholly (ports : AuthPorts) (system : AuthSystem) : Prop :=
  ∀ index reply process tokenHash passwordHash completedAt auditId correlationId next,
    system.processes[index]? = some process →
      process.execution = .commit (.account (.completeRecovery tokenHash passwordHash
        completedAt auditId correlationId)) next →
        match system.world.store.completed tokenHash passwordHash completedAt auditId
            correlationId with
        | none =>
            (system.step (AuthRequest.program ports) (.advance index reply)).world.store =
              system.world.store
        | some userId =>
            Recovered system.world.store.database.tables
              (system.step (AuthRequest.program ports)
                (.advance index reply)).world.store.database.tables
              tokenHash passwordHash completedAt auditId correlationId userId

theorem completesWholly {ports : AuthPorts} {system : AuthSystem}
    (hlogin : EveryUserHasLogin system.world.store.database.tables) :
    CompletesWholly ports system := by
  intro index reply process tokenHash passwordHash completedAt auditId correlationId next
    hprocess hnode
  have hcommit : system.commit? (.advance index reply) =
      ((AuthWrite.account (.completeRecovery tokenHash passwordHash completedAt auditId
        correlationId)).apply system.world.store).map (⟨process, .account (.completeRecovery
          tokenHash passwordHash completedAt auditId correlationId), ·⟩) := by
    simp only [System.commit?, hprocess, hnode]
  have hstore := @System.step_store auth _ _ _ _ (AuthRequest.program ports) system
    (.advance index reply)
  rw [hcommit] at hstore
  rw [hstore]
  cases happly : (AuthWrite.account (.completeRecovery tokenHash passwordHash completedAt
      auditId correlationId)).apply system.world.store with
  | none =>
      have hnone : system.world.store.completed tokenHash passwordHash completedAt auditId
          correlationId = none := by
        simp only [AuthWrite.apply, Option.map_eq_none_iff] at happly
        simp [AuthStore.completed, happly]
      rw [hnone]
      rfl
  | some after =>
      split
      · rename_i hcompleted
        exact unchanged_of_apply hlogin happly hcompleted
      · rename_i userId hcompleted
        exact recovered_of_apply happly hcompleted

/-- From every state that the use cases reach from empty stores, and for every
interleaving that follows: the tokens that wait, at most one, and those created later
bound how often a raw token rotates a credential; and each completion is whole. -/
theorem recovery_once_and_whole (ports : AuthPorts) (before rest : List AuthChoice)
    (tokenHash : String) :
    ((AuthStore.empty.after ports before).changes (AuthRequest.program ports) rest).countP
          (rotates tokenHash) ≤
        (AuthStore.empty.after ports before).world.store.waiting tokenHash +
          ((AuthStore.empty.after ports before).changes (AuthRequest.program ports)
            rest).countP (createsRecovery tokenHash) ∧
      (AuthStore.empty.after ports before).world.store.waiting tokenHash ≤ 1 ∧
        CompletesWholly ports (AuthStore.empty.after ports before) := by
  refine ⟨?_, ?_, ?_⟩
  · have hcount := @System.countP_changes_le auth _ _ _ _ (AuthRequest.program ports)
      (AuthStore.waiting tokenHash) (rotates tokenHash) (createsRecovery tokenHash)
      (AuthStore.empty.after ports before) rest ?_
    · omega
    · intro later choice commit hcommit
      rw [← System.run_append AuthStore.empty.idle before later] at hcommit ⊢
      exact waiting_step tokenHash hcommit
  · have hunique :=
      (AuthStore.empty.after ports before).world.store.database.constraints.recoveryTokenHash
    apply rowcount_le_one hunique
    intro row hrow
    simp only [Bool.and_eq_true, beq_iff_eq] at hrow
    exact hrow.1
  · apply completesWholly
    exact everyUserHasLogin_after ports (fun _ huser => absurd huser List.not_mem_nil) before

end MuxivoConsole
