/-
The base discipline around accounts: what every commit leaves of the session
rows, whichever use cases overlap.  A row keeps its owner, its token and its
expiry, a revocation stays, and no identifier names a second row.
-/
import MuxivoConsole.Guarantees.AuthUseCases

namespace MuxivoConsole

open Interleaving Relational

/-- What a session row keeps for good. -/
structure SameSession (first second : AuthSessionRecord) : Prop where
  id : first.id = second.id
  userId : first.userId = second.userId
  tokenHash : first.tokenHash = second.tokenHash
  expiresAt : first.expiresAt = second.expiresAt
  revokedAt : ∀ instant, first.revokedAt = some instant → second.revokedAt = some instant

/-- How the world may change from one instant to a later one: a session row with an
identifier that was in use was there before. -/
structure AuthEvolves (before after : AuthWorld) : Prop where
  spent : before.spent ⊆ after.spent
  sessions : ∀ row ∈ after.store.database.tables.authSessions, row.id ∈ before.spent →
    ∃ old ∈ before.store.database.tables.authSessions, SameSession old row

/-- Every stored session has an identifier that is in use. -/
def SessionsKnown (world : AuthWorld) : Prop :=
  ∀ row ∈ world.store.database.tables.authSessions, row.id ∈ world.spent

section Relations

theorem SameSession.refl (row : AuthSessionRecord) : SameSession row row :=
  ⟨rfl, rfl, rfl, rfl, fun _ hrevoked => hrevoked⟩

theorem SameSession.trans {first second third : AuthSessionRecord}
    (hfirst : SameSession first second) (hsecond : SameSession second third) :
    SameSession first third :=
  ⟨hfirst.id.trans hsecond.id, hfirst.userId.trans hsecond.userId,
    hfirst.tokenHash.trans hsecond.tokenHash, hfirst.expiresAt.trans hsecond.expiresAt,
    fun instant hrevoked => hsecond.revokedAt instant (hfirst.revokedAt instant hrevoked)⟩

theorem AuthEvolves.refl (world : AuthWorld) : AuthEvolves world world :=
  ⟨List.Subset.refl _, fun row hrow _ => ⟨row, hrow, SameSession.refl row⟩⟩

theorem AuthEvolves.trans {first second third : AuthWorld} (hfirst : AuthEvolves first second)
    (hsecond : AuthEvolves second third) : AuthEvolves first third := by
  refine ⟨List.Subset.trans hfirst.spent hsecond.spent, ?_⟩
  intro row hrow hspent
  obtain ⟨middle, hmiddle, hlater⟩ := hsecond.sessions row hrow (hfirst.spent hspent)
  have hused : middle.id ∈ first.spent := by
    rw [hlater.id]
    exact hspent
  obtain ⟨old, hold, hearlier⟩ := hfirst.sessions middle hmiddle hused
  exact ⟨old, hold, hearlier.trans hlater⟩

/-- Every row of an updated table continues a row that was there. -/
theorem SameSession.of_update {rows : List AuthSessionRecord}
    {condition : AuthSessionRecord → Bool} {change : AuthSessionRecord → AuthSessionRecord}
    (hchange : ∀ row, condition row = true → SameSession row (change row))
    {row : AuthSessionRecord} (hrow : row ∈ update condition change rows) :
    ∃ old ∈ rows, SameSession old row := by
  rcases mem_update.mp hrow with ⟨hold, _⟩ | ⟨old, hold, hcondition, rfl⟩
  · exact ⟨row, hold, SameSession.refl row⟩
  · exact ⟨old, hold, hchange old hcondition⟩

end Relations

section Transactions

/-- A statement that sets `revoked_at` where it is null keeps what a row keeps. -/
theorem SameSession.revoke {row : AuthSessionRecord} (instant : Instant)
    (hopen : row.revokedAt.isNone = true) :
    SameSession row { row with revokedAt := some instant } := by
  refine ⟨rfl, rfl, rfl, rfl, ?_⟩
  intro earlier hrevoked
  rw [hrevoked] at hopen
  cases hopen

theorem AuthSessionRecord.activeFor_iff {row : AuthSessionRecord} {userId : UUID}
    {now : Instant} : row.activeFor userId now = true ↔
      row.userId = userId ∧ row.revokedAt = none ∧ now < row.expiresAt := by
  simp [AuthSessionRecord.activeFor, and_assoc]

theorem AuthSessionRecord.activeAs_iff {row : AuthSessionRecord} {sessionId userId : UUID}
    {now : Instant} : row.activeAs sessionId userId now = true ↔
      row.id = sessionId ∧ row.activeFor userId now = true := by
  simp [AuthSessionRecord.activeAs]

/-- An active session continues an active session. -/
theorem SameSession.active {old row : AuthSessionRecord} (hsame : SameSession old row)
    {userId : UUID} {now : Instant} (hactive : row.activeFor userId now = true) :
    old.activeFor userId now = true := by
  obtain ⟨huser, hopen, hexpiry⟩ := AuthSessionRecord.activeFor_iff.mp hactive
  apply AuthSessionRecord.activeFor_iff.mpr
  refine ⟨hsame.userId.trans huser, ?_, hsame.expiresAt ▸ hexpiry⟩
  cases hrevoked : old.revokedAt with
  | none => rfl
  | some instant =>
      have hkept := hsame.revokedAt instant hrevoked
      rw [hopen] at hkept
      cases hkept

open AuthSessionRecord in
/-- The session rows after a transaction: those before, as far as they are left, and
the one that is created. -/
theorem AccountWrite.sessions_block (write : AccountWrite) (tables : Tables)
    {row : AuthSessionRecord} (hrow : row ∈ (write.block tables).1.authSessions) :
    (∃ old ∈ tables.authSessions, SameSession old row) ∨
      ∃ auditEvent, write = .createSession row auditEvent := by
  have hsame : row ∈ tables.authSessions → ∃ old ∈ tables.authSessions, SameSession old row :=
    fun hold => ⟨row, hold, SameSession.refl row⟩
  cases write with
  | createSession session auditEvent =>
      rcases List.mem_append.mp hrow with hold | hnew
      · exact Or.inl (hsame hold)
      · rw [List.mem_singleton.mp hnew]
        exact Or.inr ⟨auditEvent, rfl⟩
  | revoke sessionId userId revokedAt auditEvent =>
      simp only [block] at hrow
      split at hrow
      all_goals
        refine Or.inl (SameSession.of_update ?_ hrow)
        intro old hunrevoked
        simp only [AuthSessionRecord.unrevokedAs, Bool.and_eq_true] at hunrevoked
        exact SameSession.revoke revokedAt hunrevoked.2
  | revokeAllForUser userId revokedAt auditEvent =>
      simp only [block] at hrow
      split at hrow
      all_goals
        refine Or.inl (SameSession.of_update ?_ hrow)
        intro old hactive
        exact SameSession.revoke revokedAt (by simp [(activeFor_iff.mp hactive).2.1])
  | reauthenticate sessionId userId authenticatedAt auditEvent =>
      simp only [block] at hrow
      split at hrow
      all_goals
        refine Or.inl (SameSession.of_update ?_ hrow)
        intro old _
        exact ⟨rfl, rfl, rfl, rfl, fun _ hrevoked => hrevoked⟩
  | touchLastSeen sessionId userId lastSeenAt =>
      simp only [block] at hrow
      refine Or.inl (SameSession.of_update ?_ hrow)
      intro old _
      exact ⟨rfl, rfl, rfl, rfl, fun _ hrevoked => hrevoked⟩
  | completeRecovery tokenHash passwordHash completedAt auditId correlationId =>
      simp only [block] at hrow
      split at hrow
      · exact Or.inl (hsame hrow)
      · split at hrow
        · exact Or.inl (hsame hrow)
        · refine Or.inl (SameSession.of_update ?_ hrow)
          intro old hactive
          exact SameSession.revoke completedAt (by simp [(activeFor_iff.mp hactive).2.1])
  | changePassword | unlink =>
      simp only [block] at hrow
      split at hrow <;> exact Or.inl (hsame hrow)
  | deleteExpiredOrRevokedSessions before =>
      exact Or.inl (hsame (List.mem_of_mem_filter hrow))
  | _ => exact Or.inl (hsame hrow)

/-- A transaction on accounts leaves what its block leaves. -/
theorem AuthWrite.apply_account {write : AccountWrite} {store after : AuthStore}
    (happly : (AuthWrite.account write).apply store = some after) :
    after.database.tables = (write.block store.database.tables).1 := by
  simp only [AuthWrite.apply, Option.map_eq_some_iff] at happly
  obtain ⟨database, hdatabase, rfl⟩ := happly
  exact AccountWrite.apply_eq_some.mp hdatabase

/-- A transaction whose block changes no row leaves both stores as they are. -/
theorem AuthWrite.unchanged_of_block {write : AccountWrite} {store after : AuthStore}
    (happly : (AuthWrite.account write).apply store = some after)
    (hblock : (write.block store.database.tables).1 = store.database.tables) :
    after = store := by
  have htables := AuthWrite.apply_account happly
  rw [hblock] at htables
  simp only [AuthWrite.apply, Option.map_eq_some_iff] at happly
  obtain ⟨database, _, rfl⟩ := happly
  have hsame : database = store.database := by
    cases database
    cases hdatabase : store.database
    simp_all
  rw [hsame]

/-- What a justified write does to the database: nothing, one registration or one
transaction on accounts. -/
theorem AuthJustified.database {ports : AuthPorts} {request : AuthRequest}
    {history : AuthHistory} {write : AuthWrite} {store after : AuthStore}
    (hjustified : AuthJustified ports request history (.commit write))
    (happly : write.apply store = some after) :
    after.database = store.database ∨
      (∃ user identity email credential auditEvent,
        RegistersAccount user identity credential ∧
          (Write.register user identity email credential auditEvent).statements
            store.database.tables = some after.database.tables) ∨
      ∃ account, write = .account account ∧
        after.database.tables = (account.block store.database.tables).1 := by
  cases write with
  | console write =>
      cases hjustified with
      | register _ _ hrows =>
          simp only [AuthWrite.apply, Option.map_eq_some_iff] at happly
          obtain ⟨database, hdatabase, rfl⟩ := happly
          exact Or.inr (Or.inl ⟨_, _, _, _, _, hrows, Write.apply_eq_some.mp hdatabase⟩)
  | account write => exact Or.inr (Or.inr ⟨write, rfl, AuthWrite.apply_account happly⟩)
  | put | replace | consume | elapse =>
      simp only [AuthWrite.apply, Option.some.injEq] at happly
      exact Or.inl (by rw [← happly])

end Transactions

section Commits

variable {ports : AuthPorts} {request : AuthRequest} {history : AuthHistory}
variable {write : AuthWrite} {world : AuthWorld} {after : AuthStore}

/-- A session row after a justified commit was there before, or the commit created it. -/
theorem AuthJustified.sessions_cases
    (hjustified : AuthJustified ports request history (.commit write))
    (happly : write.apply world.store = some after) {row : AuthSessionRecord}
    (hrow : row ∈ after.database.tables.authSessions) :
    (∃ old ∈ world.store.database.tables.authSessions, SameSession old row) ∨
      ∃ auditEvent, write = .account (.createSession row auditEvent) := by
  rcases hjustified.database happly with hsame | ⟨_, _, _, _, _, _, hstatements⟩ |
    ⟨account, rfl, htables⟩
  · rw [hsame] at hrow
    exact Or.inl ⟨row, hrow, SameSession.refl row⟩
  · simp only [Write.statements, Option.some.injEq] at hstatements
    rw [← hstatements] at hrow
    exact Or.inl ⟨row, hrow, SameSession.refl row⟩
  · rw [htables] at hrow
    rcases account.sessions_block _ hrow with hold | ⟨auditEvent, rfl⟩
    · exact Or.inl hold
    · exact Or.inr ⟨auditEvent, rfl⟩

/-- A session that a commit creates has an identifier of its own. -/
theorem AuthJustified.sessions
    (hjustified : AuthJustified ports request history (.commit write))
    (happly : write.apply world.store = some after) {row : AuthSessionRecord}
    (hrow : row ∈ after.database.tables.authSessions) :
    (∃ old ∈ world.store.database.tables.authSessions, SameSession old row) ∨
      row.id ∈ held history := by
  rcases hjustified.sessions_cases happly hrow with hold | ⟨auditEvent, rfl⟩
  · exact Or.inl hold
  · cases hjustified with
    | createSession hmay => exact Or.inr hmay.fresh

/-- Commit rule: whatever a use case may write lets the sessions evolve and keeps the
identifiers known. -/
theorem AuthJustified.evolves
    (hjustified : AuthJustified ports request history (.commit write))
    (hheld : ∀ id ∈ held history, id ∉ world.spent) (hknown : SessionsKnown world)
    (happly : write.apply world.store = some after) :
    SessionsKnown ⟨after, held history ++ world.spent⟩ ∧
      AuthEvolves world ⟨after, held history ++ world.spent⟩ := by
  refine ⟨?_, List.subset_append_right _ _, ?_⟩
  · intro row hrow
    rcases hjustified.sessions happly hrow with ⟨old, hold, hsame⟩ | hnew
    · rw [← hsame.id]
      exact List.mem_append_right _ (hknown old hold)
    · exact List.mem_append_left _ hnew
  · intro row hrow hspent
    rcases hjustified.sessions happly hrow with hold | hnew
    · exact hold
    · exact absurd hspent (hheld row.id hnew)

end Commits

/-- The discipline of the use cases around accounts. -/
def authDiscipline (ports : AuthPorts) : Discipline auth AuthRequest Failure AuthOutcome where
  guard := AuthJustified ports
  post request history outcome :=
    ∀ value, outcome = .ok value → AuthAnswered ports request history value
  Inv := SessionsKnown
  Evolves := AuthEvolves

theorem auth_verified (ports : AuthPorts) :
    (authDiscipline ports).Verified (AuthRequest.program ports) where
  refl := AuthEvolves.refl
  trans _ _ _ := AuthEvolves.trans
  meets request := (AuthRequest.program_ensures request).meets
  keeps := by
    intro request history write world after hknown _ hheld hjustified happly
    exact hjustified.evolves hheld hknown happly

theorem sessionsKnown_idle (store : AuthStore) : SessionsKnown store.idle.world := by
  intro row hrow
  exact List.mem_append_left _ (List.mem_append_left _ (List.mem_map_of_mem hrow))

/-- What holds of every run over any two stores. -/
theorem auth_holds (ports : AuthPorts) (store : AuthStore) (choices : List AuthChoice) :
    (authDiscipline ports).Holds (store.after ports choices) :=
  ((@Discipline.holds_idle auth AuthRequest Failure AuthOutcome (authDiscipline ports) _ _ (sessionsKnown_idle store)
    fun _ hname => hname).run (auth_verified ports) choices).1

/-- What changes between two instants of a run. -/
theorem auth_evolves (ports : AuthPorts) (store : AuthStore) (before rest : List AuthChoice) :
    AuthEvolves (store.after ports before).world
      (store.after ports (before ++ rest)).world := by
  have hrun := ((auth_holds ports store before).run (auth_verified ports) rest).2
  rwa [← System.run_append store.idle] at hrun

/-- The same between two instants of one run, as stored. -/
theorem auth_sessions_between (ports : AuthPorts) (store : AuthStore)
    (before rest : List AuthChoice) {old row : AuthSessionRecord}
    (hold : old ∈ (store.after ports before).world.store.database.tables.authSessions)
    (hrow : row ∈ (store.after ports (before ++ rest)).world.store.database.tables.authSessions)
    (hid : old.id = row.id) : SameSession old row := by
  have hknown : SessionsKnown (store.after ports before).world :=
    (auth_holds ports store before).inv
  have hspent : row.id ∈ (store.after ports before).world.spent := hid ▸ hknown old hold
  obtain ⟨origin, horigin, hsame⟩ :=
    (auth_evolves ports store before rest).sessions row hrow hspent
  have heq : origin = old :=
    (store.after ports before).world.store.database.constraints.sessionId.eq horigin hold
      (hsame.id.trans hid.symm)
  exact heq ▸ hsame

/-- The same between two instants of one run. -/
theorem auth_sessions_storeAt (ports : AuthPorts) (store : AuthStore)
    (choices : List AuthChoice) {first last : Nat} (hle : first ≤ last)
    {old row : AuthSessionRecord}
    (hold : old ∈ (store.idle.storeAt (AuthRequest.program ports) choices
      first).database.tables.authSessions)
    (hrow : row ∈ (store.idle.storeAt (AuthRequest.program ports) choices
      last).database.tables.authSessions) (hid : old.id = row.id) : SameSession old row := by
  have hsplit : choices.take last = choices.take first ++ (choices.take last).drop first := by
    have htake : (choices.take last).take first = choices.take first := by
      rw [List.take_take, Nat.min_eq_left hle]
    rw [← htake, List.take_append_drop]
  apply auth_sessions_between ports store (choices.take first) ((choices.take last).drop first)
    hold ?_ hid
  rw [← hsplit]
  exact hrow

end MuxivoConsole
