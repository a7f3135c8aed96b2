/-
The OAuth flows over the stores of the accounts and the transaction tables: linking an
identity, signing in, and the callback route that tries both.
-/
import MuxivoConsole.Application.AuthSystem
import MuxivoConsole.Interleaving.Receipts
import MuxivoConsole.Persistence.OAuthTransactions

namespace MuxivoConsole

open Interleaving

inductive OAuthCall where
  | auth (call : AuthCall)
  /-- `OpaqueValueProtector.encrypt`: the ciphertext is salted -/
  | encryptSecret (plaintext : String)
  /-- `OAuthIdentityProvider.resolve_subject` of the client of a provider -/
  | resolveSubject (client : LoginIdentityProvider) (authorizationCode codeVerifier : String)
  /-- `rate_limiter.check` -/
  | checkRateLimit (scope key : String)
  deriving DecidableEq

def OAuthCall.Answer : OAuthCall → Type
  | auth call => call.Answer
  | encryptSecret _ => List UInt8
  | resolveSubject .. => Except Failure String
  | checkRateLimit .. => Bool

abbrev oauth : Interface where
  Store := OAuthStore
  Write := OAuthWrite
  apply := OAuthWrite.apply
  Receipt := OAuthWrite.Receipt
  receipt := OAuthWrite.receipt
  Name := UUID
  Call := OAuthCall
  Answer := OAuthCall.Answer

instance (priority := low) : DecidableEq oauth.Name :=
  inferInstanceAs (DecidableEq UUID)

/-- A use case around accounts as one of the larger system. -/
def authInOAuth : Embedding auth oauth where
  store := OAuthStore.accounts
  write := .auth
  receipt _ := id
  name := id
  call := .auth
  answer _ := id

/-- The deterministic ports of the OAuth flows, and which of them the composition has
configured. -/
structure OAuthPorts extends AuthPorts where
  /-- `OpaqueValueProtector.decrypt`; `none` is its `ValueError` -/
  decryptSecret : List UInt8 → Option String
  /-- the padded `urlsafe_b64encode` of the SHA-256 digest, stripped -/
  codeChallenge : String → String
  offersLogin : LoginIdentityProvider → Bool
  offersLink : LoginIdentityProvider → Bool

inductive OAuthFailure where
  /-- an exception that is none of the following -/
  | raised (failure : Failure)
  | identityLinkStartRejected (message : String)
  | identityLinkCompletionRejected (message : String)
  | oauthLoginStartRejected (message : String)
  | oauthLoginCompletionRejected (message : String)
  | httpException (statusCode : Nat) (detail : String)
  deriving DecidableEq

abbrev OAuthUseCase (α : Type) := Execution oauth OAuthFailure α

structure BeginIdentityLinkCommand where
  actorId : UUID
  provider : LoginIdentityProvider
  correlationId : UUID
  deriving DecidableEq

structure CompleteIdentityLinkCommand where
  provider : LoginIdentityProvider
  state : String
  authorizationCode : String
  correlationId : UUID
  deriving DecidableEq

/-- The arguments of `CompleteOAuthLogin.execute`. -/
structure CompleteOAuthLoginCommand where
  provider : LoginIdentityProvider
  state : String
  authorizationCode : String
  correlationId : UUID
  clientIp : Option String
  userAgent : Option String
  deriving DecidableEq

/-- `StartedIdentityLink` and `StartedOAuthLogin` -/
structure StartedAuthorization where
  state : String
  codeChallenge : String
  expiresInSeconds : Nat
  deriving DecidableEq

/-- What a route reads of a request: `request.state.actor_id` is the actor of the session
that the middleware resolved. -/
structure HttpRequest where
  actorId : Option UUID
  correlationId : UUID
  clientHost : Option String
  userAgent : Option String
  deriving DecidableEq

/-- `lifetime`: ten minutes. -/
def authorizationLifetime : Nat :=
  10 * 60 * 1000000

/-- `provider_label` of the routes -/
def providerLabel : LoginIdentityProvider → String
  | .email => "E-mail"
  | .discord => "Discord"
  | .twitch => "Twitch"
  | .telegram => "Telegram"
  | .google => "Google"
  | .yandex => "Yandex ID"

/-- The fact of a started flow. -/
def authorizationAudit (id correlationId transactionId : UUID) (actorId : Option UUID)
    (action resourceType : String) (named : action ≠ "" ∧ resourceType ≠ "") : AuditEvent where
  id := id
  correlationId := correlationId
  actorId := actorId
  organizationId := none
  action := action
  resourceType := resourceType
  resourceId := some transactionId.str
  result := .succeeded
  named := named

/-- `SqlAlchemyLoginIdentityReader.find_user_id` -/
def Database.findUserId (database : Database) (provider : LoginIdentityProvider)
    (providerSubject : String) : Option UUID :=
  (database.tables.loginIdentities.find? fun row =>
    row.provider == StrEnum.value provider && row.providerSubject == providerSubject).map
      (·.userId)

namespace OAuthUseCase

section Steps

/-- A use case around accounts, unchanged. -/
def ofAuth {α : Type} (useCase : AuthUseCase α) : OAuthUseCase α := do
  let result ← (useCase.embed authInOAuth).attempt
  match result with
  | .ok value => pure value
  | .error failure => Execution.raise (.raised failure)

/-- Let an exception of a port propagate. -/
def orRaise {α : Type} : Except Failure α → OAuthUseCase α
  | .ok value => pure value
  | .error failure => Execution.raise (.raised failure)

/-- Let a `ValueError` propagate. -/
def orValueError {α : Type} : Except String α → OAuthUseCase α
  | .ok value => pure value
  | .error message => Execution.raise (.raised ⟨.valueError, message⟩)

/-- `clock.now` -/
def now : OAuthUseCase Instant :=
  @Execution.ask oauth OAuthFailure (.auth (.console .now))

/-- `token_issuer.issue` -/
def issueToken : OAuthUseCase String :=
  @Execution.ask oauth OAuthFailure (.auth (.console .issueToken))

/-- `secrets.encrypt` -/
def encryptSecret (plaintext : String) : OAuthUseCase (List UInt8) :=
  @Execution.ask oauth OAuthFailure (.encryptSecret plaintext)

/-- `IdentifierGenerator.new` -/
def newIdentifier : OAuthUseCase UUID :=
  Execution.newName

/-- `secrets.decrypt` -/
def decryptSecret (ports : OAuthPorts) (ciphertext : List UInt8) : OAuthUseCase String :=
  match ports.decryptSecret ciphertext with
  | some plaintext => pure plaintext
  | none =>
      Execution.raise (.raised ⟨.valueError, "Opaque value ciphertext could not be decrypted."⟩)

/-- `provider_client.resolve_subject` -/
def resolveSubject (client : LoginIdentityProvider) (authorizationCode codeVerifier : String) :
    OAuthUseCase String := do
  let answer ← @Execution.ask oauth OAuthFailure
    (.resolveSubject client authorizationCode codeVerifier)
  orRaise answer

/-- `create`: an `IntegrityError` makes it `False`. -/
def create (purpose : OAuthPurpose) (transaction : OAuthTransactionRecord purpose.Owner)
    (auditEvent : AuditEvent) : OAuthUseCase Bool :=
  @Execution.save oauth OAuthFailure (.create purpose transaction auditEvent)

/-- The statement of `consume`. -/
def claim (purpose : OAuthPurpose) (stateHash : String) (consumedAt : Instant) :
    OAuthUseCase (Option (OAuthTransactionRecord purpose.Owner)) := do
  let response ← @Execution.transact oauth OAuthFailure (.consume purpose stateHash consumedAt)
  match response with
  | some record => pure record
  | none => Execution.raise (.raised ⟨.integrityError, "transaction could not be consumed"⟩)

/-- `SqlAlchemyIdentityLinkTransactionConsumer.consume` -/
def consumeIdentityLink (stateHash : String) (consumedAt : Instant) :
    OAuthUseCase (Option IdentityLinkTransaction) := do
  let record ← claim .link stateHash consumedAt
  match record with
  | none => pure none
  | some record =>
      -- a `ValueError` of the enumeration or of the constructor makes it `None`
      pure ((StrEnum.parse? record.provider).bind fun provider =>
        (Validated.make IdentityLinkTransactionFields.postInit
          { id := record.id
            userId := record.owner
            provider
            stateHash := record.stateHash
            codeVerifierCiphertext := record.codeVerifierCiphertext
            expiresAt := record.expiresAt
            consumedAt := record.consumedAt }).toOption)

/-- `SqlAlchemyOAuthLoginTransactionConsumer.consume` -/
def consumeOAuthLogin (stateHash : String) (consumedAt : Instant) :
    OAuthUseCase (Option OAuthLoginTransaction) := do
  let record ← claim .login stateHash consumedAt
  match record with
  | none => pure none
  | some record =>
      match StrEnum.parse? record.provider with
      | none =>
          Execution.raise (.raised ⟨.valueError,
            "'" ++ record.provider ++ "' is not a valid LoginIdentityProvider"⟩)
      | some provider => do
          let transaction ← orValueError (Validated.make OAuthLoginTransactionFields.postInit
            { id := record.id
              provider
              stateHash := record.stateHash
              codeVerifierCiphertext := record.codeVerifierCiphertext
              expiresAt := record.expiresAt })
          pure (some transaction)

end Steps

/-- `BeginIdentityLink.execute` -/
def beginIdentityLink (ports : OAuthPorts) (command : BeginIdentityLinkCommand) :
    OAuthUseCase StartedAuthorization := do
  if command.provider = .email then
    Execution.raise (.identityLinkStartRejected "Identity link could not be started.")
  else
    let status ← Execution.select fun store : OAuthStore =>
      store.accounts.database.userStatus command.actorId
    if status ≠ some .active then
      Execution.raise (.identityLinkStartRejected "Identity link could not be started.")
    else
      let now ← now
      let state ← issueToken
      let codeVerifier ← issueToken
      let id ← newIdentifier
      let codeVerifierCiphertext ← encryptSecret codeVerifier
      let transaction ← orValueError (Validated.make IdentityLinkTransactionFields.postInit
        { id
          userId := command.actorId
          provider := command.provider
          stateHash := ports.hashToken state
          codeVerifierCiphertext
          expiresAt := now + authorizationLifetime })
      let auditId ← newIdentifier
      let created ← create .link
        { id := transaction.fields.id
          owner := transaction.fields.userId
          provider := StrEnum.value transaction.fields.provider
          stateHash := transaction.fields.stateHash
          codeVerifierCiphertext := transaction.fields.codeVerifierCiphertext
          expiresAt := transaction.fields.expiresAt }
        (authorizationAudit auditId command.correlationId transaction.fields.id
          (some command.actorId) "identity.link_started" "identity_link_transaction" (by decide))
      if !created then
        Execution.raise (.identityLinkStartRejected "Identity link could not be started.")
      else pure ⟨state, ports.codeChallenge codeVerifier, 600⟩

/-- `BeginOAuthLogin.execute` -/
def beginOAuthLogin (ports : OAuthPorts) (provider : LoginIdentityProvider)
    (correlationId : UUID) : OAuthUseCase StartedAuthorization := do
  if provider = .email then
    Execution.raise (.oauthLoginStartRejected "OAuth login could not be started.")
  else
    let state ← issueToken
    let codeVerifier ← issueToken
    let id ← newIdentifier
    let codeVerifierCiphertext ← encryptSecret codeVerifier
    let now ← now
    let transaction ← orValueError (Validated.make OAuthLoginTransactionFields.postInit
      { id
        provider
        stateHash := ports.hashToken state
        codeVerifierCiphertext
        expiresAt := now + authorizationLifetime })
    let auditId ← newIdentifier
    let created ← create .login
      { id := transaction.fields.id
        owner := ()
        provider := StrEnum.value transaction.fields.provider
        stateHash := transaction.fields.stateHash
        codeVerifierCiphertext := transaction.fields.codeVerifierCiphertext
        expiresAt := transaction.fields.expiresAt }
      (authorizationAudit auditId correlationId transaction.fields.id none
        "auth.oauth_login_started" "oauth_login_transaction" (by decide))
    if !created then
      Execution.raise (.oauthLoginStartRejected "OAuth login could not be started.")
    else pure ⟨state, ports.codeChallenge codeVerifier, 600⟩

/-- The `try` block of `CompleteIdentityLink.execute`. -/
def linkSubject (ports : OAuthPorts) (client : LoginIdentityProvider)
    (command : CompleteIdentityLinkCommand) (transaction : IdentityLinkTransaction) :
    OAuthUseCase LoginIdentity := do
  let verifier ← decryptSecret ports transaction.fields.codeVerifierCiphertext
  let providerSubject ← resolveSubject client command.authorizationCode verifier
  ofAuth (AuthUseCase.linkVerifiedIdentity {
    actorId := transaction.fields.userId
    provider := transaction.fields.provider
    verifiedProviderSubject := providerSubject
    correlationId := command.correlationId })

/-- `IdentityLinkCompletionRejectedError` -/
def rejectLink {α : Type} : OAuthUseCase α :=
  Execution.raise (.identityLinkCompletionRejected "Identity link could not be completed.")

/-- `CompleteIdentityLink.execute` with the client of a provider -/
def completeIdentityLink (ports : OAuthPorts) (client : LoginIdentityProvider)
    (command : CompleteIdentityLinkCommand) : OAuthUseCase LoginIdentity := do
  if command.state = "" ∨ command.authorizationCode = "" then rejectLink
  else
    let consumedAt ← now
    let transaction ← consumeIdentityLink (ports.hashToken command.state) consumedAt
    match transaction with
    | none => rejectLink
    | some transaction =>
        if transaction.fields.provider ≠ command.provider then rejectLink
        else
          let linked ← (linkSubject ports client command transaction).attempt
          match linked with
          | .ok identity => pure identity
          | .error (.raised failure) =>
              if failure.errorClass = .identityLinkRejected ∨
                  failure.errorClass = .valueError then rejectLink
              else Execution.raise (.raised failure)
          | .error failure => Execution.raise failure

/-- The `try` block of `CompleteOAuthLogin.execute`. -/
def signInSubject (ports : OAuthPorts) (client : LoginIdentityProvider)
    (command : CompleteOAuthLoginCommand) (transaction : OAuthLoginTransaction) :
    OAuthUseCase IssuedBrowserSession := do
  let verifier ← decryptSecret ports transaction.fields.codeVerifierCiphertext
  let providerSubject ← resolveSubject client command.authorizationCode verifier
  let userId ← Execution.select fun store : OAuthStore =>
    store.accounts.database.findUserId command.provider providerSubject
  match userId with
  | none => Execution.raise (.raised ⟨.valueError, "Provider identity is not linked."⟩)
  | some userId =>
      ofAuth (AuthUseCase.createBrowserSession ports.toAuthPorts {
        userId
        correlationId := command.correlationId
        assuranceLevel := .recentAuthentication
        clientIp := command.clientIp
        userAgent := command.userAgent })

/-- `OAuthLoginCompletionRejectedError` -/
def rejectLogin {α : Type} : OAuthUseCase α :=
  Execution.raise (.oauthLoginCompletionRejected "OAuth login could not be completed.")

/-- `CompleteOAuthLogin.execute` with the client of a provider -/
def completeOAuthLogin (ports : OAuthPorts) (client : LoginIdentityProvider)
    (command : CompleteOAuthLoginCommand) : OAuthUseCase IssuedBrowserSession := do
  if command.provider = .email ∨ command.state = "" ∨ command.authorizationCode = "" then
    rejectLogin
  else
    let consumedAt ← now
    let transaction ← consumeOAuthLogin (ports.hashToken command.state) consumedAt
    match transaction with
    | none => rejectLogin
    | some transaction =>
        if transaction.fields.provider ≠ command.provider then rejectLogin
        else
          let signedIn ← (signInSubject ports client command transaction).attempt
          match signedIn with
          | .ok session => pure session
          | .error _ => rejectLogin

section Routes

/-- `enforce_auth_rate_limit` -/
def enforceAuthRateLimit (request : HttpRequest) (scope : String) : OAuthUseCase Unit := do
  let allowed : Bool ← @Execution.ask oauth OAuthFailure
    (.checkRateLimit scope (request.clientHost.getD "unknown"))
  if allowed then pure ()
  else Execution.raise (.httpException 429 "Too many requests")

/-- `begin_external_identity_link` -/
def beginExternalIdentityLink (ports : OAuthPorts) (request : HttpRequest)
    (provider : LoginIdentityProvider) : OAuthUseCase StartedAuthorization :=
  match request.actorId with
  | none => Execution.raise (.httpException 403 "Access denied")
  | some actorId =>
      if !ports.offersLink provider then
        Execution.raise (.httpException 503
          (providerLabel provider ++ " identity linking is unavailable"))
      else do
        let started ← (beginIdentityLink ports
          ⟨actorId, provider, request.correlationId⟩).attempt
        match started with
        | .ok started => pure started
        | .error (.identityLinkStartRejected _) =>
            Execution.raise (.httpException 403
              (providerLabel provider ++ " identity linking failed"))
        | .error failure => Execution.raise failure

/-- `begin_oauth_login` -/
def beginOAuthLoginRoute (ports : OAuthPorts) (request : HttpRequest)
    (provider : LoginIdentityProvider) : OAuthUseCase StartedAuthorization := do
  enforceAuthRateLimit request "auth.oauth.start"
  if !ports.offersLogin provider then
    Execution.raise (.httpException 503 (providerLabel provider ++ " sign-in is unavailable"))
  else
    let started ← (beginOAuthLogin ports provider request.correlationId).attempt
    match started with
    | .ok started => pure started
    | .error (.oauthLoginStartRejected _) =>
        Execution.raise (.httpException 503
          (providerLabel provider ++ " sign-in is unavailable"))
    | .error failure => Execution.raise failure

/-- `complete_oauth_login_if_valid` -/
def completeOAuthLoginIfValid (ports : OAuthPorts) (request : HttpRequest)
    (provider : LoginIdentityProvider) (state authorizationCode : String) :
    OAuthUseCase (Option IssuedBrowserSession) := do
  if !ports.offersLogin provider then pure none
  else
    let completed ← (completeOAuthLogin ports provider
      { provider
        state
        authorizationCode
        correlationId := request.correlationId
        clientIp := request.clientHost.filter (· ≠ "")
        userAgent := request.userAgent }).attempt
    match completed with
    | .ok session => pure (some session)
    | .error (.oauthLoginCompletionRejected _) => pure none
    | .error failure => Execution.raise failure

/-- What the callback route answers: a session with a redirect home, or a redirect that
names the linked provider. -/
inductive CallbackResponse where
  | signedIn (session : IssuedBrowserSession)
  | linked (provider : LoginIdentityProvider)
  deriving DecidableEq

/-- `complete_external_identity_link_callback`: the actor of the request is not read. -/
def completeExternalIdentityLinkCallback (ports : OAuthPorts) (request : HttpRequest)
    (provider : LoginIdentityProvider) (state authorizationCode : String) :
    OAuthUseCase CallbackResponse := do
  enforceAuthRateLimit request "auth.oauth.callback"
  let issuedSession ← completeOAuthLoginIfValid ports request provider state authorizationCode
  match issuedSession with
  | some session => pure (.signedIn session)
  | none =>
      if !ports.offersLink provider then
        Execution.raise (.httpException 503
          (providerLabel provider ++ " identity linking is unavailable"))
      else
        let linked ← (completeIdentityLink ports provider
          ⟨provider, state, authorizationCode, request.correlationId⟩).attempt
        match linked with
        | .ok _ => pure (.linked provider)
        | .error (.identityLinkCompletionRejected _) =>
            Execution.raise (.httpException 400
              (providerLabel provider ++ " identity linking failed"))
        | .error failure => Execution.raise failure

end Routes

end OAuthUseCase

/-- A request to an OAuth route, or any use case around accounts. -/
inductive OAuthRequest where
  | beginIdentityLink (request : HttpRequest) (provider : LoginIdentityProvider)
  | beginOAuthLogin (request : HttpRequest) (provider : LoginIdentityProvider)
  | callback (request : HttpRequest) (provider : LoginIdentityProvider)
      (state authorizationCode : String)
  | account (request : AuthRequest)
  deriving DecidableEq

inductive OAuthOutcome where
  | authorization (started : StartedAuthorization)
  | response (response : OAuthUseCase.CallbackResponse)
  | account (outcome : AuthOutcome)
  deriving DecidableEq

/-- Tag the result of a use case. -/
def OAuthUseCase.returning {α : Type} (tag : α → OAuthOutcome) (useCase : OAuthUseCase α) :
    OAuthUseCase OAuthOutcome := do
  let value ← useCase
  pure (tag value)

def OAuthRequest.program (ports : OAuthPorts) : OAuthRequest → OAuthUseCase OAuthOutcome
  | beginIdentityLink request provider =>
      .returning .authorization (.beginExternalIdentityLink ports request provider)
  | beginOAuthLogin request provider =>
      .returning .authorization (.beginOAuthLoginRoute ports request provider)
  | callback request provider state authorizationCode =>
      .returning .response
        (.completeExternalIdentityLinkCallback ports request provider state authorizationCode)
  | account request =>
      .returning .account (.ofAuth (request.program ports.toAuthPorts))

abbrev OAuthHistory := History oauth

abbrev OAuthTrace := Trace oauth

abbrev OAuthProcess := Process oauth OAuthRequest OAuthFailure OAuthOutcome

abbrev OAuthSystem := System oauth OAuthRequest OAuthFailure OAuthOutcome

abbrev OAuthChoice := Choice oauth OAuthRequest

abbrev OAuthCommit := Commit oauth OAuthRequest OAuthFailure OAuthOutcome

namespace OAuthStore

/-- The identifiers that the stores already use. -/
def identifiers (store : OAuthStore) : List UUID :=
  store.accounts.identifiers ++ (store.transactions .link).map (·.id) ++
    (store.transactions .login).map (·.id)

/-- Nothing in progress over the stores. -/
def idle (store : OAuthStore) : OAuthSystem :=
  System.idle ⟨store, store.identifiers⟩ store.identifiers

/-- The system after a run. -/
abbrev after (ports : OAuthPorts) (store : OAuthStore) (choices : List OAuthChoice) :
    OAuthSystem :=
  store.idle.run (OAuthRequest.program ports) choices

theorem after_snoc (ports : OAuthPorts) (store : OAuthStore) (choices : List OAuthChoice)
    (choice : OAuthChoice) :
    store.after ports (choices ++ [choice]) =
      (store.after ports choices).step (OAuthRequest.program ports) choice :=
  System.run_snoc store.idle choices choice

theorem after_append (ports : OAuthPorts) (store : OAuthStore)
    (before rest : List OAuthChoice) :
    store.after ports (before ++ rest) =
      (store.after ports before).run (OAuthRequest.program ports) rest :=
  System.run_append store.idle before rest

end OAuthStore

namespace Scenario

/-- Ports with a transparent verifier that offer every provider. -/
def oauthPorts : OAuthPorts :=
  { authPorts with
    decryptSecret := fun _ => some "verifier"
    codeChallenge := id
    offersLogin := fun _ => true
    offersLink := fun _ => true }

/-- Services that succeed at an instant; a provider resolves a code to a subject of its
name. -/
def oauthReply (now name : Nat) : Reply oauth where
  name := ⟨BitVec.ofNat 128 name⟩
  answer
    | .auth call => (authReply now name).answer call
    | .encryptSecret _ => ([0] : List UInt8)
    | .resolveSubject _ code _ => (.ok code : Except Failure String)
    | .checkRateLimit .. => true

/-- Let a process take `count` turns at an instant; the generator counts on from
`name`. -/
def oauthTurns (index name count : Nat) (now : Nat := 0) : List OAuthChoice :=
  (List.range' name count).map fun name => .advance index (oauthReply now name)

/-- A request of an actor. -/
def httpRequest (actorId : Option UUID) : HttpRequest :=
  ⟨actorId, 5, some "host", none⟩

/-- The user 1 starts to link a Discord account; the state is `token-12`. -/
def linkStart : List OAuthChoice :=
  [.start (.beginIdentityLink (httpRequest (some 1)) .discord)] ++ oauthTurns 0 10 8

end Scenario

end MuxivoConsole
