/-
What the use cases around accounts can do: read one snapshot of the database or
of Redis, commit one transaction or one Redis command, draw an identifier, or
call a port outside.  The Console's own programs run here unchanged.
-/
import MuxivoConsole.Application.MemberManagement
import MuxivoConsole.Application.PlatformUpdates
import MuxivoConsole.Interleaving.Embedding
import MuxivoConsole.Persistence.AccountReaders
import MuxivoConsole.Tokens.TokenStores

namespace MuxivoConsole

open Interleaving

/-- The two stores behind the use cases. -/
structure AuthStore where
  database : Database
  tokens : RedisServer

inductive AuthWrite where
  | console (write : Write)
  | account (write : AccountWrite)
  | put (key value : String) (ttlSeconds : Int)
  | replace (key value : String) (ttlSeconds : Int)
  | consume (key value : String)
  /-- the clock of the Redis server goes on -/
  | elapse (duration : Nat)
  deriving DecidableEq

namespace AuthWrite

abbrev Receipt : AuthWrite → Type
  | console _ => Unit
  | account write => write.Returned
  | put .. | replace .. | consume .. => Bool
  | elapse _ => Unit

def apply (write : AuthWrite) (store : AuthStore) : Option AuthStore :=
  match write with
  | console write => (write.apply store.database).map ({ store with database := · })
  | account write => (write.apply store.database).map ({ store with database := · })
  | put key value ttlSeconds =>
      some { store with
        tokens := (RedisOneTimeTokenStore.put store.tokens key value ttlSeconds).1 }
  | replace key value ttlSeconds =>
      some { store with
        tokens := (RedisOneTimeTokenStore.replace store.tokens key value ttlSeconds).1 }
  | consume key value =>
      some { store with tokens := (RedisOneTimeTokenStore.consume store.tokens key value).1 }
  | elapse duration => some { store with tokens := store.tokens.elapse duration }

def receipt : (write : AuthWrite) → AuthStore → write.Receipt
  | console _, _ => ()
  | account write, store => (write.block store.database.tables).2
  | put key value ttlSeconds, store =>
      (RedisOneTimeTokenStore.put store.tokens key value ttlSeconds).2
  | replace key value ttlSeconds, store =>
      (RedisOneTimeTokenStore.replace store.tokens key value ttlSeconds).2
  | consume key value, store => (RedisOneTimeTokenStore.consume store.tokens key value).2
  | elapse _, _ => ()

end AuthWrite

/-- What becomes of a command that is sent to Redis. -/
inductive Delivery where
  | answered
  | lostOnTheWay
  | answerLost
  deriving DecidableEq

inductive AuthCall where
  | console (call : Call)
  /-- one connection to Redis -/
  | connectRedis
  /-- `PasswordHasher.hash`: the hash is salted -/
  | hashPassword (password : String)
  /-- `secrets.randbelow(1_000_000)` -/
  | drawCode
  /-- `EmailPasswordRegistrationVerificationNotifier.send` -/
  | sendCode (registrationId : UUID) (recipientEmail verificationCode : String)
      (expiresAt : Instant) (correlationId : UUID)
  /-- `PasswordRecoveryNotifier.send` -/
  | sendRecovery (userId : UUID) (recipientEmail rawToken : String) (expiresAt : Instant)
      (correlationId : UUID)
  /-- `PasswordRecoveryCompletionNotifier.send` -/
  | sendRecovered (userId : UUID) (recipientEmail : String) (changedAt : Instant)
      (correlationId : UUID)
  deriving DecidableEq

def AuthCall.Answer : AuthCall → Type
  | console call => call.Answer
  | connectRedis => Delivery
  | hashPassword _ => String
  | drawCode => Fin 1000000
  | sendCode .. | sendRecovery .. | sendRecovered .. => Except Failure Unit

instance codes_neZero : NeZero 1000000 := ⟨by decide⟩

abbrev auth : Interface where
  Store := AuthStore
  Write := AuthWrite
  apply := AuthWrite.apply
  Receipt := AuthWrite.Receipt
  receipt := AuthWrite.receipt
  Name := UUID
  Call := AuthCall
  Answer := AuthCall.Answer

instance (priority := low) : DecidableEq auth.Name :=
  inferInstanceAs (DecidableEq UUID)

/-- A use case of the Console as one of the larger system. -/
def consoleInAuth : Embedding console auth where
  store := AuthStore.database
  write := .console
  receipt _ _ := ()
  name := id
  call := .console
  answer _ := id

/-- The deterministic ports of the use cases around accounts. -/
structure AuthPorts extends Ports where
  /-- `EmailProtector.decrypt`; `none` is `InvalidToken` or its kin -/
  decryptEmail : List UInt8 → Option String
  /-- `PasswordHasher.verify` -/
  verifyPassword : String → String → Bool
  /-- `SessionFingerprintHasher.hash_ip_address` -/
  hashIpAddress : String → String
  /-- `SessionFingerprintHasher.hash_user_agent` -/
  hashUserAgent : String → String
  /-- `UUID(reference)` raises no `ValueError` -/
  isUuid : String → Bool
  /-- `PendingEmailPasswordRegistration.to_json` -/
  toJson : PendingEmailPasswordRegistration → String
  /-- `PendingEmailPasswordRegistration.from_json` -/
  fromJson : String → Option PendingEmailPasswordRegistration

abbrev AuthUseCase (α : Type) := Execution auth Failure α

namespace AuthUseCase

/-- A program of the Console, unchanged. -/
def ofConsole {α : Type} (useCase : UseCase α) : AuthUseCase α :=
  useCase.embed consoleInAuth

/-- Let an exception of a port propagate. -/
def orRaise {α : Type} : Except Failure α → AuthUseCase α
  | .ok value => pure value
  | .error failure => Execution.raise failure

/-- Let a `ValueError` of a constructor propagate. -/
def orValueError {α : Type} : Except String α → AuthUseCase α
  | .ok value => pure value
  | .error message => Execution.raise ⟨.valueError, message⟩

/-- `clock.now` -/
def now : AuthUseCase Instant :=
  @Execution.ask auth Failure (.console .now)

/-- `token_issuer.issue` -/
def issueToken : AuthUseCase String :=
  @Execution.ask auth Failure (.console .issueToken)

/-- `email_protector.encrypt` -/
def encryptEmail (normalizedEmail : String) : AuthUseCase (List UInt8) :=
  @Execution.ask auth Failure (.console (.encryptEmail normalizedEmail))

/-- `password_hasher.hash` -/
def hashPassword (password : String) : AuthUseCase String :=
  @Execution.ask auth Failure (.hashPassword password)

/-- `IdentifierGenerator.new` -/
def newIdentifier : AuthUseCase UUID :=
  Execution.newName

/-- `get_status` -/
def getUserStatus (userId : UUID) : AuthUseCase (Option UserStatus) :=
  Execution.select fun store : AuthStore => store.database.userStatus userId

/-- `RequireRecentAuthentication.check` -/
def requireRecentAuthentication (principal : BrowserSessionPrincipal) : AuthUseCase Unit :=
  ofConsole (UseCase.requireRecentAuthentication principal)

/-- Run a transaction whose method returns `False` or `None` for an
`IntegrityError`. -/
def transact (write : AccountWrite) : AuthUseCase (Option write.Returned) :=
  @Execution.transact auth Failure (.account write)

/-- Run a transaction whose method lets an `IntegrityError` propagate. -/
def transactOrRaise (write : AccountWrite) : AuthUseCase write.Returned := do
  match ← transact write with
  | some returned => pure returned
  | none => Execution.raise ⟨.integrityError, "duplicate key value violates unique constraint"⟩

/-- `RedisOneTimeTokenStoreUnavailableError` -/
def tokenStoreUnavailable : Failure :=
  ⟨.connectionError, "Redis token store unavailable."⟩

/-- `pending_registrations.get` and `recovery_tokens.get` -/
def getToken (key : String) : AuthUseCase (Except Failure (Option String)) := do
  let delivery ← @Execution.ask auth Failure .connectRedis
  match delivery with
  | .answered => do
      let value ← Execution.select fun store : AuthStore => store.tokens.get key
      pure (.ok value)
  | _ => pure (.error tokenStoreUnavailable)

/-- Send a command that changes Redis; its answer may be lost after it was
carried out. -/
def sendCommand (command : AuthWrite) (answered : Option command.Receipt → Bool) :
    AuthUseCase (Except Failure Bool) := do
  let delivery ← @Execution.ask auth Failure .connectRedis
  match delivery with
  | .answered => do
      let response ← @Execution.transact auth Failure command
      pure (.ok (answered response))
  | .lostOnTheWay => pure (.error tokenStoreUnavailable)
  | .answerLost => do
      let _ ← @Execution.transact auth Failure command
      pure (.error tokenStoreUnavailable)

def putToken (key value : String) (ttlSeconds : Int) : AuthUseCase (Except Failure Bool) :=
  sendCommand (.put key value ttlSeconds) fun response => response == some true

def replaceToken (key value : String) (ttlSeconds : Int) :
    AuthUseCase (Except Failure Bool) :=
  sendCommand (.replace key value ttlSeconds) fun response => response == some true

def consumeToken (key value : String) : AuthUseCase (Except Failure Bool) :=
  sendCommand (.consume key value) fun response => response == some true

end AuthUseCase

end MuxivoConsole
