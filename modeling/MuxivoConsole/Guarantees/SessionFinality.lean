/-
The end of a session is final.  Every statement carries its own copy of the
activeness predicate; what they share is that a row keeps its expiry and its
revocation, so that whoever looks at the row after its end finds it ended.
-/
import MuxivoConsole.Guarantees.AuthEvolution

namespace MuxivoConsole

open Interleaving Relational

/-- The session that a process has resolved. -/
def resolvedSession (process : AuthProcess) : Option UUID :=
  match process.execution with
  | .done (.ok (.principal (some principal))) => some principal.sessionId
  | _ => none

/-- The sessions that a process has listed. -/
def listedSessions (process : AuthProcess) : List UUID :=
  match process.execution with
  | .done (.ok (.sessions views)) => views.map (·.session.fields.id)
  | _ => []

/-- The session that a write touches or reauthenticates, and when. -/
def AuthWrite.refreshes : AuthWrite → Option (UUID × Instant)
  | account (.touchLastSeen sessionId _ lastSeenAt) => some (sessionId, lastSeenAt)
  | account (.reauthenticate sessionId _ authenticatedAt _) => some (sessionId, authenticatedAt)
  | _ => none

/-- What such a write answers. -/
def AuthWrite.refreshed (store : AuthStore) : AuthWrite → Bool
  | account (.touchLastSeen sessionId userId lastSeenAt) =>
      (AccountWrite.block store.database.tables (.touchLastSeen sessionId userId lastSeenAt)).2
  | account (.reauthenticate sessionId userId authenticatedAt auditEvent) =>
      (AccountWrite.block store.database.tables
        (.reauthenticate sessionId userId authenticatedAt auditEvent)).2
  | _ => true

/-- Every resolution that found the session has read its own clock before the expiry of
the row and, if the row was revoked at the instant `present`, has read it before. -/
def ResolvesInTime (system : AuthSystem) (row : AuthSessionRecord) (present : Nat) : Prop :=
  ∀ process ∈ system.processes, ∀ rawToken,
    process.request = .resolveBrowserSession rawToken →
      resolvedSession process = some row.id →
        ∃ moment stored now, FirstRead process.history moment stored ∧
          FirstNow process.history now ∧ now < row.expiresAt ∧
            (row.revokedAt.isSome = true → moment < present)

/-- The same for listings, whose statement selects with the reading of the clock. -/
def ListsInTime (system : AuthSystem) (row : AuthSessionRecord) (present : Nat) : Prop :=
  ∀ process ∈ system.processes, ∀ command,
    process.request = .listBrowserSessions command → row.id ∈ listedSessions process →
      ∃ moment stored now, LastRead process.history moment stored ∧
        FirstNow process.history now ∧ now < row.expiresAt ∧
          (row.revokedAt.isSome = true → moment < present)

/-- A touch or a reauthentication of a session whose row is revoked, or has expired by
the clock reading of the execution, changes nothing and answers so. -/
def RefreshesInTime (system : AuthSystem) (row : AuthSessionRecord) : Prop :=
  ∀ choice, ∀ commit ∈ system.commit? choice, ∀ instant,
    commit.write.refreshes = some (row.id, instant) →
      FirstNow commit.process.history instant ∧
        (row.revokedAt.isSome = true ∨ row.expiresAt ≤ instant →
          commit.after = system.world.store ∧
            commit.write.refreshed system.world.store = false)

/-- Revoking all sessions of a user at an instant: none that existed is active from that
instant on in any later state, and the other users' rows are as they were. -/
def RevokesAll (ports : AuthPorts) (store : AuthStore) (before : List AuthChoice)
    (choice : AuthChoice) (rest : List AuthChoice) : Prop :=
  ∀ commit ∈ (store.after ports before).commit? choice, ∀ userId revokedAt auditEvent,
    commit.write = .account (.revokeAllForUser userId revokedAt auditEvent) →
      (∀ row ∈ (store.after ports
          (before ++ choice :: rest)).world.store.database.tables.authSessions,
        row.id ∈ (store.after ports before).world.store.database.tables.authSessions.map
            AuthSessionRecord.id →
          ∀ now, revokedAt ≤ now → row.activeFor userId now = false) ∧
        commit.after.database.tables.authSessions.filter (·.userId != userId) =
          (store.after ports before).world.store.database.tables.authSessions.filter
            (·.userId != userId)

section Reads

variable {database : Database} {row : AuthSessionRecord}

theorem sessionByTokenHash_eq_some {tokenHash : String} {session : AuthSession}
    (hread : database.sessionByTokenHash tokenHash = some session) :
    ∃ record ∈ database.tables.authSessions, session.fields.id = record.id ∧
      session.fields.expiresAt = record.expiresAt ∧
        session.fields.revokedAt = record.revokedAt := by
  simp only [Database.sessionByTokenHash, Option.bind_eq_bind, Option.bind_eq_some_iff] at hread
  obtain ⟨record, hrecord, hsession⟩ := hread
  obtain ⟨hid, _, _, hexpires, hrevoked⟩ := sessionFromRecord_eq_some hsession
  exact ⟨record, List.mem_of_find?_eq_some hrecord, hid, hexpires, hrevoked⟩

theorem mem_activeSessions {userId : UUID} {activeAt : Instant} {session : AuthSession}
    (hread : session ∈ database.activeSessions userId activeAt) :
    ∃ record ∈ database.tables.authSessions, session.fields.id = record.id ∧
      record.activeFor userId activeAt = true := by
  simp only [Database.activeSessions, List.mem_filterMap] at hread
  obtain ⟨record, hrecord, hsession⟩ := hread
  rw [List.mem_insertionSort, List.mem_filter] at hrecord
  exact ⟨record, hrecord.1, (sessionFromRecord_eq_some hsession).1, hrecord.2⟩

end Reads

section Instants

variable {ports : AuthPorts} {store : AuthStore} {before rest : List AuthChoice}
variable {row : AuthSessionRecord}

/-- A row that was read as in use at a clock reading has not expired by then, and it was
read before the row was revoked. -/
theorem read_in_time
    (hrow : row ∈ (store.after ports before).world.store.database.tables.authSessions)
    {process : AuthProcess} (hprocess : process ∈ (store.after ports (before ++ rest)).processes)
    {moment : Nat} {stored : AuthStore} (hread : (moment, stored) ∈ reads process.history)
    {record : AuthSessionRecord} (hrecord : record ∈ stored.database.tables.authSessions)
    (hid : record.id = row.id) {now : Instant} (hopen : record.revokedAt = none)
    (hexpiry : now < record.expiresAt) :
    now < row.expiresAt ∧ (row.revokedAt.isSome = true → moment < before.length) := by
  obtain ⟨hmoment, hstored⟩ := read_storeAt (before ++ rest) process hprocess moment stored hread
  rw [hstored] at hrecord
  have hpresent : row ∈ (store.idle.storeAt (AuthRequest.program ports) (before ++ rest)
      before.length).database.tables.authSessions := by
    rw [AuthStore.storeAt_length]
    exact hrow
  by_cases hearly : moment < before.length
  · have hsame := auth_sessions_storeAt ports store (before ++ rest) (Nat.le_of_lt hearly)
      hrecord hpresent hid
    exact ⟨hsame.expiresAt ▸ hexpiry, fun _ => hearly⟩
  · have hsame := auth_sessions_storeAt ports store (before ++ rest) (Nat.le_of_not_lt hearly)
      hpresent hrecord hid.symm
    refine ⟨hsame.expiresAt ▸ hexpiry, ?_⟩
    intro hrevoked
    obtain ⟨instant, hinstant⟩ := Option.isSome_iff_exists.mp hrevoked
    have hkept := hsame.revokedAt instant hinstant
    rw [hopen] at hkept
    cases hkept

theorem resolvesInTime
    (hrow : row ∈ (store.after ports before).world.store.database.tables.authSessions) :
    ResolvesInTime (store.after ports (before ++ rest)) row before.length := by
  intro process hprocess rawToken hrequest hresolved
  unfold resolvedSession at hresolved
  split at hresolved
  · rename_i principal hdone
    have hanswered := (auth_holds ports store (before ++ rest)).outcome hprocess hdone _ rfl
    rw [hrequest] at hanswered
    obtain ⟨moment, stored, session, now, hread, hnow, hsession, hactive, hprincipal, _⟩ :=
      hanswered
    obtain ⟨record, hrecord, hid, hexpires, hrevoked⟩ := sessionByTokenHash_eq_some hsession
    simp only [AuthSessionFields.isActiveAt, Bool.and_eq_true, decide_eq_true_eq,
      Option.isNone_iff_eq_none] at hactive
    have hrecordId : record.id = row.id := by
      rw [← hid, ← hprincipal]
      exact Option.some.inj hresolved
    have hintime := read_in_time hrow hprocess (List.mem_of_head? hread) hrecord hrecordId
      (hrevoked ▸ hactive.1) (hexpires ▸ hactive.2)
    exact ⟨moment, stored, now, hread, hnow, hintime⟩
  · cases hresolved

theorem listsInTime
    (hrow : row ∈ (store.after ports before).world.store.database.tables.authSessions) :
    ListsInTime (store.after ports (before ++ rest)) row before.length := by
  intro process hprocess command hrequest hlisted
  unfold listedSessions at hlisted
  split at hlisted
  · rename_i views hdone
    have hanswered := (auth_holds ports store (before ++ rest)).outcome hprocess hdone _ rfl
    rw [hrequest] at hanswered
    obtain ⟨moment, stored, activeAt, hread, hnow, hviews⟩ := hanswered
    obtain ⟨view, hview, hid⟩ := List.mem_map.mp hlisted
    have hsession : view.session ∈ stored.database.activeSessions command.actorId activeAt := by
      rw [← hviews]
      exact List.mem_map_of_mem hview
    obtain ⟨record, hrecord, hrecordId, hactive⟩ := mem_activeSessions hsession
    obtain ⟨_, hopen, hexpiry⟩ := AuthSessionRecord.activeFor_iff.mp hactive
    have hintime := read_in_time hrow hprocess (List.mem_of_getLast? hread) hrecord
      (hrecordId.symm.trans hid) hopen hexpiry
    exact ⟨moment, stored, activeAt, hread, hnow, hintime⟩
  · cases hlisted

/-- A statement that refreshes a session whose row has ended selects nothing. -/
theorem rowcount_ended {rows : List AuthSessionRecord} {sessionId userId : UUID}
    {instant : Instant}
    (hended : ∀ record ∈ rows, record.id = sessionId →
      record.revokedAt.isSome = true ∨ record.expiresAt ≤ instant) :
    rowcount (·.activeAs sessionId userId instant) rows = 0 := by
  apply List.countP_eq_zero.mpr
  intro record hrecord hactive
  obtain ⟨hid, hfor⟩ := AuthSessionRecord.activeAs_iff.mp hactive
  obtain ⟨_, hopen, hexpiry⟩ := AuthSessionRecord.activeFor_iff.mp hfor
  rcases hended record hrecord hid with hrevoked | hexpired
  · simp [hopen] at hrevoked
  · exact absurd hexpired (Nat.not_le.mpr hexpiry)

/-- A refresh carries the clock reading of its execution. -/
theorem AuthJustified.refreshes_now {request : AuthRequest} {history : AuthHistory}
    {write : AuthWrite} {sessionId : UUID} {instant : Instant}
    (hjustified : AuthJustified ports request history (.commit write))
    (hrefreshes : write.refreshes = some (sessionId, instant)) : FirstNow history instant := by
  cases hjustified with
  | touch hnow | reauthenticate hnow =>
      cases hrefreshes
      exact hnow
  | _ => cases hrefreshes

theorem refreshesInTime
    (hrow : row ∈ (store.after ports before).world.store.database.tables.authSessions) :
    RefreshesInTime (store.after ports (before ++ rest)) row := by
  intro choice commit hcommit instant hrefreshes
  have hjustified : AuthJustified ports commit.process.request commit.process.history
      (.commit commit.write) :=
    (auth_holds ports store (before ++ rest)).guard_commit hcommit
  obtain ⟨_, _, happly⟩ := System.commit?_eq_some hcommit
  have hended : row.revokedAt.isSome = true ∨ row.expiresAt ≤ instant →
      ∀ record ∈ (store.after ports
        (before ++ rest)).world.store.database.tables.authSessions, record.id = row.id →
          record.revokedAt.isSome = true ∨ record.expiresAt ≤ instant := by
    intro hend record hrecord hid
    have hsame := auth_sessions_between ports store before rest hrow hrecord hid.symm
    rw [← hsame.expiresAt]
    refine hend.imp ?_ id
    intro hrevoked
    obtain ⟨at', hat⟩ := Option.isSome_iff_exists.mp hrevoked
    rw [hsame.revokedAt at' hat]
    rfl
  obtain ⟨process, write, after⟩ := commit
  dsimp only at hrefreshes hjustified happly ⊢
  refine ⟨hjustified.refreshes_now hrefreshes, fun hend => ?_⟩
  have hnone := fun userId => @rowcount_ended _ row.id userId instant (hended hend)
  unfold AuthWrite.refreshes at hrefreshes
  split at hrefreshes
  · cases hrefreshes
    refine ⟨AuthWrite.unchanged_of_block happly ?_, ?_⟩
    · simp only [AccountWrite.block, update_eq_self (hnone _)]
    · simp [AuthWrite.refreshed, AccountWrite.block, hnone]
  · cases hrefreshes
    refine ⟨AuthWrite.unchanged_of_block happly ?_, ?_⟩
    · simp [AccountWrite.block, update_eq_self (hnone _), hnone]
    · simp [AuthWrite.refreshed, AccountWrite.block, hnone]
  · cases hrefreshes

theorem revokesAll (ports : AuthPorts) (store : AuthStore) (before : List AuthChoice)
    (choice : AuthChoice) (rest : List AuthChoice) :
    RevokesAll ports store before choice rest := by
  intro commit hcommit userId revokedAt auditEvent hwrite
  obtain ⟨_, _, happly⟩ := System.commit?_eq_some hcommit
  rw [hwrite] at happly
  have hsessions : commit.after.database.tables.authSessions =
      update (·.activeFor userId revokedAt)
        (fun row => { row with revokedAt := some revokedAt })
        (store.after ports before).world.store.database.tables.authSessions := by
    rw [AuthWrite.apply_account happly]
    simp only [AccountWrite.block]
    split <;> rfl
  constructor
  · intro row hrow hknown now hlater
    rw [← @map_update AuthSessionRecord UUID _ (·.activeFor userId revokedAt)
      (fun row => { row with revokedAt := some revokedAt }) AuthSessionRecord.id (fun _ => rfl),
      ← hsessions] at hknown
    obtain ⟨old, hold, hid⟩ := List.mem_map.mp hknown
    have hafter : (store.after ports (before ++ [choice])).world.store = commit.after := by
      rw [AuthStore.after_snoc, System.step_store_of_commit hcommit]
    have hsame : SameSession old row := by
      apply auth_sessions_between ports store (before ++ [choice]) rest
      · rw [hafter]
        exact hold
      · simpa using hrow
      · exact hid
    have hinactive : old.activeFor userId revokedAt = false := by
      rw [hsessions] at hold
      rcases mem_update.mp hold with ⟨_, hinactive⟩ | ⟨_, _, _, rfl⟩
      · exact hinactive
      · simp [AuthSessionRecord.activeFor]
    by_contra hactive
    rw [Bool.not_eq_false] at hactive
    obtain ⟨huser, hopen, hexpiry⟩ := AuthSessionRecord.activeFor_iff.mp (hsame.active hactive)
    have hbefore : old.activeFor userId revokedAt = true :=
      AuthSessionRecord.activeFor_iff.mpr ⟨huser, hopen, Nat.lt_of_le_of_lt hlater hexpiry⟩
    rw [hbefore] at hinactive
    cases hinactive
  · rw [hsessions]
    apply filter_update
    intro row _ hactive
    simp [(AuthSessionRecord.activeFor_iff.mp hactive).1]

end Instants

/-- Nothing resolves a session any more whose row is revoked at some instant. -/
def ResolvesNoRevoked (ports : AuthPorts) (store : AuthStore) (before rest : List AuthChoice) :
    Prop :=
  ∀ row ∈ (store.after ports before).world.store.database.tables.authSessions,
    row.revokedAt.isSome = true →
      (store.after ports (before ++ rest)).processes.countP
          (resolvedSession · == some row.id) =
        (store.after ports before).processes.countP (resolvedSession · == some row.id)

instance (ports : AuthPorts) (store : AuthStore) (before rest : List AuthChoice) :
    Decidable (ResolvesNoRevoked ports store before rest) :=
  inferInstanceAs (Decidable (∀ row ∈
    (store.after ports before).world.store.database.tables.authSessions,
      row.revokedAt.isSome = true →
        (store.after ports (before ++ rest)).processes.countP
            (resolvedSession · == some row.id) =
          (store.after ports before).processes.countP (resolvedSession · == some row.id)))

namespace Scenario

/-- The user with a session that was seen just now. -/
def signedIn : AuthStore where
  database := {
    tables := { signedUp.database.tables with
      authSessions := [⟨4, 1, digest "cookie", 1000, none, "password", none, none, some 0, 0⟩] }
    constraints := by decide +kernel }
  tokens := ⟨0, Expiring.Keyspace.empty⟩

/-- A resolution has selected the session; then the session is revoked. -/
def revokedMeanwhile : List AuthChoice :=
  [.start (.resolveBrowserSession "cookie")] ++ authTurns 0 10 1 ++
    [.start (.revokeBrowserSession ⟨1, 4, 5⟩)] ++ authTurns 1 20 3

end Scenario

end MuxivoConsole
