/-
Sessions and the password that they were opened with.  A recovery revokes the
sessions that it finds, while a sign-in reads the account in one transaction and
inserts its session in another; a session outlives the password that it proved
only if a recovery commits between the two.
-/
import MuxivoConsole.Guarantees.Recovery

namespace MuxivoConsole

open Interleaving Relational

/-- The user whose password a change recovers, with the instant of its completion. -/
def recovered (change : AuthStore × AuthCommit) : Option (UUID × Instant) :=
  match change.2.write with
  | .account (.completeRecovery tokenHash passwordHash completedAt auditId correlationId) =>
      (change.1.completed tokenHash passwordHash completedAt auditId correlationId).map
        (·, completedAt)
  | _ => none

/-- The session that a write creates. -/
def AuthWrite.createdSession : AuthWrite → Option AuthSessionRecord
  | account (.createSession session _) => some session
  | _ => none

/-- The instant at which a sign-in read the account of the user whose password it
verified. -/
def provedAt (ports : AuthPorts) (process : AuthProcess) (userId : UUID) : Option Nat :=
  match process.request with
  | .authenticateEmailPassword command =>
      (reads process.history).head?.bind fun (moment, store) =>
        (ports.normalizeEmail command.email).bind fun normalizedEmail =>
          (store.database.accountByEmailLookupHash (ports.lookupHash normalizedEmail)).bind
            fun account =>
              if account.fields.userId = userId ∧
                  ports.verifyPassword account.fields.passwordHash command.password = true then
                some moment
              else none
  | _ => none

/-- The session was created in the run by a sign-in that verified a password hash
stored after that instant. -/
def SignedInSince (ports : AuthPorts) (store : AuthStore) (choices : List AuthChoice)
    (instant : Nat) (row : AuthSessionRecord) : Prop :=
  ∃ change ∈ store.idle.changes (AuthRequest.program ports) choices,
    change.2.write.createdSession.map AuthSessionRecord.id = some row.id ∧
      ∃ moment ∈ provedAt ports change.2.process row.userId, instant < moment

instance (ports : AuthPorts) (store : AuthStore) (choices : List AuthChoice) (instant : Nat)
    (row : AuthSessionRecord) : Decidable (SignedInSince ports store choices instant row) :=
  inferInstanceAs (Decidable (∃ change ∈ store.idle.changes (AuthRequest.program ports) choices,
    change.2.write.createdSession.map AuthSessionRecord.id = some row.id ∧
      ∃ moment ∈ provedAt ports change.2.process row.userId, instant < moment))

/-- If the step recovers a user's password, every session of the user that is active at
its completion or later, after all these choices, was opened with a password stored
since then. -/
def PasswordProofExpires (ports : AuthPorts) (store : AuthStore) (choices : List AuthChoice)
    (before : List AuthChoice) (choice : AuthChoice) : Prop :=
  ∀ commit ∈ (store.after ports before).commit? choice,
    ∀ user ∈ recovered ((store.after ports before).world.store, commit),
      ∀ row ∈ (store.after ports choices).world.store.database.tables.authSessions,
        row.activeFor user.1 user.2 = true →
          SignedInSince ports store choices before.length row

instance (ports : AuthPorts) (store : AuthStore) (choices before : List AuthChoice)
    (choice : AuthChoice) : Decidable (PasswordProofExpires ports store choices before choice) :=
  inferInstanceAs (Decidable (∀ commit ∈ (store.after ports before).commit? choice,
    ∀ user ∈ recovered ((store.after ports before).world.store, commit),
      ∀ row ∈ (store.after ports choices).world.store.database.tables.authSessions,
        row.activeFor user.1 user.2 = true →
          SignedInSince ports store choices before.length row))

/-- When the step commits a session, no recovery of its user has committed since the
sign-in read the account. -/
def SignInsUndisturbed (ports : AuthPorts) (store : AuthStore) (before : List AuthChoice)
    (choice : AuthChoice) : Prop :=
  ∀ commit ∈ (store.after ports before).commit? choice,
    ∀ session ∈ commit.write.createdSession, ∀ read ∈ (reads commit.process.history).head?,
      ∀ change ∈ (store.after ports (before.take read.1)).changes (AuthRequest.program ports)
        (before.drop read.1), (recovered change).map Prod.fst ≠ some session.userId

instance (ports : AuthPorts) (store : AuthStore) (before : List AuthChoice)
    (choice : AuthChoice) : Decidable (SignInsUndisturbed ports store before choice) :=
  inferInstanceAs (Decidable (∀ commit ∈ (store.after ports before).commit? choice,
    ∀ session ∈ commit.write.createdSession, ∀ read ∈ (reads commit.process.history).head?,
      ∀ change ∈ (store.after ports (before.take read.1)).changes (AuthRequest.program ports)
        (before.drop read.1), (recovered change).map Prod.fst ≠ some session.userId))

/-- Where a stored session comes from: it was there when the first choices had been
taken, or one of the later choices created it. -/
theorem session_origin {ports : AuthPorts} {store : AuthStore}
    (before rest : List AuthChoice) {row : AuthSessionRecord}
    (hrow : row ∈ (store.after ports
      (before ++ rest)).world.store.database.tables.authSessions) :
    (∃ old ∈ (store.after ports before).world.store.database.tables.authSessions,
        SameSession old row) ∨
      ∃ first choice last commit session auditEvent, rest = first ++ choice :: last ∧
        (store.after ports (before ++ first)).commit? choice = some commit ∧
          commit.write = .account (.createSession session auditEvent) ∧
            SameSession session row := by
  induction rest using List.reverseRecOn generalizing row with
  | nil =>
      rw [List.append_nil] at hrow
      exact Or.inl ⟨row, hrow, SameSession.refl row⟩
  | append_singleton rest choice ih =>
      have hearlier : ∀ old ∈ (store.after ports
          (before ++ rest)).world.store.database.tables.authSessions, SameSession old row →
          (∃ old ∈ (store.after ports before).world.store.database.tables.authSessions,
              SameSession old row) ∨
            ∃ first earlier last commit session auditEvent,
              rest ++ [choice] = first ++ earlier :: last ∧
                (store.after ports (before ++ first)).commit? earlier = some commit ∧
                  commit.write = .account (.createSession session auditEvent) ∧
                    SameSession session row := by
        intro old hold hsame
        rcases ih hold with ⟨origin, horigin, hfirst⟩ |
          ⟨first, earlier, last, commit, session, auditEvent, hsplit, hcommit, hwrite, hfirst⟩
        · exact Or.inl ⟨origin, horigin, hfirst.trans hsame⟩
        · refine Or.inr ⟨first, earlier, last ++ [choice], commit, session, auditEvent, ?_,
            hcommit, hwrite, hfirst.trans hsame⟩
          rw [hsplit]
          simp
      rw [← List.append_assoc, AuthStore.after_snoc] at hrow
      cases hcommit : (store.after ports (before ++ rest)).commit? choice with
      | none =>
          rw [System.step_store_of_no_commit hcommit] at hrow
          exact hearlier row hrow (SameSession.refl row)
      | some commit =>
          rw [System.step_store_of_commit hcommit] at hrow
          have hjustified : AuthJustified ports commit.process.request commit.process.history
              (.commit commit.write) :=
            (auth_holds ports store (before ++ rest)).guard_commit hcommit
          obtain ⟨_, _, happly⟩ := System.commit?_eq_some hcommit
          rcases hjustified.sessions_cases happly hrow with ⟨old, hold, hsame⟩ |
            ⟨auditEvent, hwrite⟩
          · exact hearlier old hold hsame
          · exact Or.inr ⟨rest, choice, [], commit, row, auditEvent, rfl, hcommit, hwrite,
              SameSession.refl row⟩

section Recoveries

variable {ports : AuthPorts} {store : AuthStore} {before : List AuthChoice}
variable {choice : AuthChoice} {commit : AuthCommit} {user : UUID × Instant}

/-- Right after a recovery no session of the user is active at its completion or
later. -/
theorem inactive_after_recovery
    (hcommit : (store.after ports before).commit? choice = some commit)
    (huser : recovered ((store.after ports before).world.store, commit) = some user) :
    ∀ row ∈ (store.after ports (before ++ [choice])).world.store.database.tables.authSessions,
      row.activeFor user.1 user.2 = false := by
  obtain ⟨_, _, happly⟩ := System.commit?_eq_some hcommit
  rw [AuthStore.after_snoc, System.step_store_of_commit hcommit]
  obtain ⟨process, write, after⟩ := commit
  unfold recovered at huser
  split at huser
  · rename_i tokenHash passwordHash completedAt auditId correlationId hwrite
    dsimp only at hwrite
    subst hwrite
    obtain ⟨userId, hcompleted, rfl⟩ := Option.map_eq_some_iff.mp huser
    exact (recovered_of_apply happly hcompleted).revoked
  · cases huser

end Recoveries

namespace Scenario

/-- The user with a recovery link that is still good. -/
def recovering : AuthStore where
  database := {
    tables := { signedUp.database.tables with
      passwordRecoveryTransactions := [⟨5, 1, digest "link", 1000, none⟩] }
    constraints := by decide +kernel }
  tokens := {
    now := 0
    keys := Expiring.Keyspace.empty.hold (recoveryKey (digest "link")) ⟨"reference", 1000⟩ }

def signIn : AuthChoice :=
  .start (.authenticateEmailPassword ⟨address 'a', "first-password", 5, none, none⟩)

def recover : AuthChoice :=
  .start (.completePasswordRecovery ⟨"link", "other-password", 5⟩)

/-- A sign-in has verified the password and is about to insert its session; the whole
recovery runs; then the session is inserted. -/
def crossedSignIn : List AuthChoice :=
  [signIn] ++ authTurns 0 10 7 ++ [recover] ++ authTurns 1 20 10 ++ authTurns 0 40 1

/-- The same sign-in and recovery, one after the other. -/
def orderlySignIn : List AuthChoice :=
  [signIn] ++ authTurns 0 10 8 ++ [recover] ++ authTurns 1 20 10

end Scenario

end MuxivoConsole
