/-
The read statements on sessions, accounts, credentials and identities, one
committed snapshot each.
-/
import MuxivoConsole.Persistence.AccountWriters
import MuxivoConsole.Persistence.Readers

namespace MuxivoConsole

/-- `_session_from_record` -/
def sessionFromRecord (record : AuthSessionRecord) : Option AuthSession := do
  let assuranceLevel ← StrEnum.parse? record.assuranceLevel
  (Validated.make AuthSessionFields.postInit {
    id := record.id
    userId := record.userId
    tokenHash := record.tokenHash
    expiresAt := record.expiresAt
    assuranceLevel
    revokedAt := record.revokedAt
    authenticatedAt := some record.createdAt
    lastSeenAt := record.lastSeenAt
    ipHash := record.ipHash
    userAgentHash := record.userAgentHash }).toOption

/-- `last_seen_at.desc().nullslast(), id` -/
def AuthSessionRecord.listedBefore (first second : AuthSessionRecord) : Bool :=
  match first.lastSeenAt, second.lastSeenAt with
  | some seen, some other =>
      other < seen || (seen == other && decide (first.id.int ≤ second.id.int))
  | some _, none => true
  | none, some _ => false
  | none, none => decide (first.id.int ≤ second.id.int)

/-- `MultipleResultsFound`, which `scalar_one_or_none` raises. -/
inductive MultipleResultsFound where
  | raised
  deriving DecidableEq

/-- `scalar_one_or_none` -/
def scalarOneOrNone {α : Type} : List α → Except MultipleResultsFound (Option α)
  | [] => .ok none
  | [value] => .ok (some value)
  | _ :: _ :: _ => .error .raised

/-- `user_id == ... , provider == ...` -/
def LoginIdentityRecord.ofUser (row : LoginIdentityRecord) (userId : UUID)
    (provider : LoginIdentityProvider) : Bool :=
  row.userId == userId && row.provider == StrEnum.value provider

namespace Database

/-- `SqlAlchemyAuthSessionReader.find_by_token_hash` -/
def sessionByTokenHash (database : Database) (tokenHash : String) : Option AuthSession := do
  let record ← database.tables.authSessions.find? (·.tokenHash == tokenHash)
  sessionFromRecord record

/-- `list_active_for_user` -/
def activeSessions (database : Database) (userId : UUID) (activeAt : Instant) :
    List AuthSession :=
  let records := (database.tables.authSessions.filter (·.activeFor userId activeAt)).insertionSort
    fun first second => first.listedBefore second
  records.filterMap sessionFromRecord

/-- `find_by_email_lookup_hash`: a join of `users`, `user_emails` and
`password_credentials`. -/
def accountByEmailLookupHash (database : Database) (emailLookupHash : String) :
    Option EmailPasswordAccount := do
  let email ← database.tables.userEmails.find? (·.emailLookupHash == emailLookupHash)
  let user ← database.tables.users.find? (·.id == email.userId)
  let credential ← database.tables.passwordCredentials.find? (·.userId == user.id)
  (Validated.make EmailPasswordAccountFields.postInit
    { userId := user.id, status := user.status
      passwordHash := credential.passwordHash }).toOption

/-- `SqlAlchemyPasswordCredentialRepository.find_for_user` -/
def credentialForUser (database : Database) (userId : UUID) : Option PasswordCredential := do
  let record ← database.tables.passwordCredentials.find? (·.userId == userId)
  (Validated.make PasswordCredentialFields.postInit
    { userId, passwordHash := record.passwordHash }).toOption

/-- `list_for_user`; the times that it orders by are left out. -/
def identitiesForUser (database : Database) (userId : UUID) : List LoginIdentityProfile :=
  (database.tables.loginIdentities.filter (·.userId == userId)).filterMap fun record =>
    (StrEnum.parse? record.provider).map fun provider =>
      { id := record.id, userId := record.userId, provider }

/-- `SqlAlchemyLoginIdentityReader.find_provider_subject` -/
def findProviderSubject (database : Database) (userId : UUID)
    (provider : LoginIdentityProvider) : Except MultipleResultsFound (Option String) := do
  let value ← scalarOneOrNone
    ((database.tables.loginIdentities.filter (·.ofUser userId provider)).map
      (·.providerSubject))
  pure (value.filter (· ≠ ""))

/-- The statement of `find_primary_email`. -/
def primaryEmailCiphertext (database : Database) (userId : UUID) : Option (List UInt8) :=
  (database.tables.userEmails.find? fun row => row.userId == userId && row.isPrimary).map
    (·.emailCiphertext)

end Database

theorem scalarOneOrNone_ok {α : Type} {values : List α} :
    (∃ value, scalarOneOrNone values = .ok value) ↔ values.length ≤ 1 := by
  match values with
  | [] => simp [scalarOneOrNone]
  | [value] => simp [scalarOneOrNone]
  | first :: second :: rest => simp [scalarOneOrNone]

section Inversions

variable {database : Database}

/-- The reader of a provider subject fails on a second row, and only then. -/
theorem findProviderSubject_ok {userId : UUID} {provider : LoginIdentityProvider} :
    (∃ value, database.findProviderSubject userId provider = .ok value) ↔
      Relational.rowcount (·.ofUser userId provider) database.tables.loginIdentities ≤ 1 := by
  rw [Relational.rowcount, List.countP_eq_length_filter,
    ← List.length_map (f := LoginIdentityRecord.providerSubject), ← scalarOneOrNone_ok]
  simp only [Database.findProviderSubject]
  cases scalarOneOrNone ((database.tables.loginIdentities.filter
    (·.ofUser userId provider)).map LoginIdentityRecord.providerSubject) with
  | ok value => simp [bind, Except.bind, pure, Except.pure]
  | error error => simp [bind, Except.bind]

theorem sessionFromRecord_eq_some {record : AuthSessionRecord} {session : AuthSession}
    (hread : sessionFromRecord record = some session) :
    session.fields.id = record.id ∧ session.fields.userId = record.userId ∧
      session.fields.tokenHash = record.tokenHash ∧
        session.fields.expiresAt = record.expiresAt ∧
          session.fields.revokedAt = record.revokedAt := by
  simp only [sessionFromRecord, Option.bind_eq_bind, Option.bind_eq_some_iff] at hread
  obtain ⟨assuranceLevel, _, hmake⟩ := hread
  rw [Validated.make_toOption_eq_some.mp hmake]
  exact ⟨rfl, rfl, rfl, rfl, rfl⟩

theorem accountByEmailLookupHash_eq_some {emailLookupHash : String}
    {account : EmailPasswordAccount}
    (hread : database.accountByEmailLookupHash emailLookupHash = some account) :
    ∃ row ∈ database.tables.passwordCredentials, row.userId = account.fields.userId ∧
      row.passwordHash = account.fields.passwordHash := by
  simp only [Database.accountByEmailLookupHash, Option.bind_eq_bind,
    Option.bind_eq_some_iff] at hread
  obtain ⟨email, _, user, _, row, hrow, hmake⟩ := hread
  rw [Validated.make_toOption_eq_some.mp hmake]
  exact ⟨row, List.mem_of_find?_eq_some hrow, by simpa using List.find?_some hrow, rfl⟩

theorem credentialForUser_eq_some {userId : UUID} {credential : PasswordCredential}
    (hread : database.credentialForUser userId = some credential) :
    ∃ row ∈ database.tables.passwordCredentials, row.userId = userId ∧
      row.passwordHash = credential.fields.passwordHash := by
  simp only [Database.credentialForUser, Option.bind_eq_bind, Option.bind_eq_some_iff] at hread
  obtain ⟨row, hrow, hmake⟩ := hread
  rw [Validated.make_toOption_eq_some.mp hmake]
  exact ⟨row, List.mem_of_find?_eq_some hrow, by simpa using List.find?_some hrow, rfl⟩

end Inversions

end MuxivoConsole
