/-
The tables of the OAuth transactions beside the stores of the accounts, and their write
transactions.  The two tables differ in one column, so they share their statements.
-/
import MuxivoConsole.Application.Auth
import MuxivoConsole.Domain.OAuth

namespace MuxivoConsole

open Interleaving Relational

/-- What an OAuth transaction is for. -/
inductive OAuthPurpose where
  | link
  | login
  deriving DecidableEq

theorem OAuthPurpose.forall_iff {property : OAuthPurpose → Prop} :
    (∀ purpose, property purpose) ↔ property .link ∧ property .login := by
  constructor
  · exact fun hall => ⟨hall .link, hall .login⟩
  · rintro ⟨hlink, hlogin⟩ (_ | _)
    · exact hlink
    · exact hlogin

instance OAuthPurpose.decidableForall {property : OAuthPurpose → Prop}
    [∀ purpose, Decidable (property purpose)] : Decidable (∀ purpose, property purpose) :=
  decidable_of_iff _ OAuthPurpose.forall_iff.symm

/-- The column that only one table has: `user_id`. -/
abbrev OAuthPurpose.Owner : OAuthPurpose → Type
  | link => UUID
  | login => Unit

/-- A row of either table. -/
structure OAuthTransactionRecord (Owner : Type) where
  id : UUID
  owner : Owner
  provider : String
  stateHash : String
  codeVerifierCiphertext : List UInt8
  expiresAt : Instant
  consumedAt : Option Instant := none
  deriving DecidableEq

/-- `identity_link_transactions` -/
abbrev IdentityLinkTransactionRecord := OAuthTransactionRecord OAuthPurpose.link.Owner

/-- `oauth_login_transactions` -/
abbrev OAuthLoginTransactionRecord := OAuthTransactionRecord OAuthPurpose.login.Owner

namespace OAuthTransactionRecord

variable {Owner : Type}

/-- `state_hash == ... , consumed_at IS NULL, expires_at > consumed_at` -/
def openFor (stateHash : String) (now : Instant) (row : OAuthTransactionRecord Owner) : Bool :=
  row.stateHash == stateHash && row.consumedAt.isNone && decide (row.expiresAt > now)

/-- `.values(consumed_at=...)` -/
def consumed (now : Instant) (row : OAuthTransactionRecord Owner) :
    OAuthTransactionRecord Owner :=
  { row with consumedAt := some now }

end OAuthTransactionRecord

/-- The rows of both tables. -/
abbrev OAuthTables := (purpose : OAuthPurpose) → List (OAuthTransactionRecord purpose.Owner)

/-- The providers that the check constraints admit. -/
def externalProviders : List String :=
  ["discord", "twitch", "telegram", "google", "yandex"]

/-- Primary keys, unique constraints, check constraints and the foreign key. -/
@[mk_iff]
structure OAuthConstraints (tables : Tables) (transactions : OAuthTables) : Prop where
  id : ∀ purpose, UniqueOn OAuthTransactionRecord.id (transactions purpose)
  stateHash : ∀ purpose, UniqueOn OAuthTransactionRecord.stateHash (transactions purpose)
  provider : ∀ purpose, ∀ row ∈ transactions purpose, row.provider ∈ externalProviders
  user : Refers OAuthTransactionRecord.owner (transactions .link) UserRecord.id tables.users

instance (tables : Tables) (transactions : OAuthTables) :
    Decidable (OAuthConstraints tables transactions) :=
  decidable_of_iff _ (oAuthConstraints_iff tables transactions).symm

/-- The stores of the accounts, and OAuth transactions that fit them. -/
structure OAuthStore where
  accounts : AuthStore
  transactions : OAuthTables
  constraints : OAuthConstraints accounts.database.tables transactions

namespace OAuthStore

/-- The result of a transaction stands if it violates no constraint. -/
def commit (accounts : AuthStore) (transactions : OAuthTables) : Option OAuthStore :=
  if hconstraints : OAuthConstraints accounts.database.tables transactions then
    some ⟨accounts, transactions, hconstraints⟩
  else none

theorem commit_eq_some {accounts : AuthStore} {transactions : OAuthTables}
    {store : OAuthStore} (hcommit : commit accounts transactions = some store) :
    store.accounts = accounts ∧ store.transactions = transactions := by
  unfold commit at hcommit
  split at hcommit
  · cases hcommit
    exact ⟨rfl, rfl⟩
  · cases hcommit

/-- A deployment that has not started an OAuth flow yet. -/
def beforeOAuth (accounts : AuthStore) : OAuthStore where
  accounts := accounts
  transactions := fun _ => []
  constraints := by
    constructor
    · exact fun _ => List.nodup_nil
    · exact fun _ => List.nodup_nil
    · intro purpose row hrow
      cases hrow
    · intro row hrow
      cases hrow

end OAuthStore

inductive OAuthWrite where
  | auth (write : AuthWrite)
  /-- `create` of either transaction writer -/
  | create (purpose : OAuthPurpose) (transaction : OAuthTransactionRecord purpose.Owner)
      (auditEvent : AuditEvent)
  /-- the statement of `consume` of either transaction consumer -/
  | consume (purpose : OAuthPurpose) (stateHash : String) (consumedAt : Instant)

namespace OAuthWrite

abbrev Receipt : OAuthWrite → Type
  | auth write => write.Receipt
  | create .. => Unit
  | consume purpose _ _ => Option (OAuthTransactionRecord purpose.Owner)

def apply (write : OAuthWrite) (store : OAuthStore) : Option OAuthStore :=
  match write with
  | auth write =>
      (write.apply store.accounts).bind (OAuthStore.commit · store.transactions)
  | create purpose transaction auditEvent =>
      ((Write.recordAuditEvent auditEvent).apply store.accounts.database).bind fun database =>
        OAuthStore.commit { store.accounts with database }
          (Function.update store.transactions purpose
            (store.transactions purpose ++ [transaction]))
  | consume purpose stateHash consumedAt =>
      OAuthStore.commit store.accounts
        (Function.update store.transactions purpose
          (Relational.update (·.openFor stateHash consumedAt) (·.consumed consumedAt)
            (store.transactions purpose)))

/-- `returning` -/
def receipt : (write : OAuthWrite) → OAuthStore → write.Receipt
  | auth write, store => write.receipt store.accounts
  | create .., _ => ()
  | consume purpose stateHash consumedAt, store =>
      ((store.transactions purpose).find? (·.openFor stateHash consumedAt)).map
        (·.consumed consumedAt)

end OAuthWrite

end MuxivoConsole
