/-
What a completed identity link leaves behind, for every answer of the provider.  The use
case turns rejections and `ValueError`s into its own rejection; the exceptions of the
clients are neither, so they leave it unconverted.
-/
import MuxivoConsole.Guarantees.OAuthUseCases
import MuxivoConsole.Infrastructure.OAuthClients
import MuxivoConsole.Interleaving.Alone

namespace MuxivoConsole

open Interleaving Relational

/-- What `SqlAlchemyIdentityLinkTransactionConsumer.consume` makes of a row. -/
def identityLinkOf (record : IdentityLinkTransactionRecord) : Option IdentityLinkTransaction :=
  (StrEnum.parse? record.provider).bind fun provider =>
    (Validated.make IdentityLinkTransactionFields.postInit
      { id := record.id
        userId := record.owner
        provider
        stateHash := record.stateHash
        codeVerifierCiphertext := record.codeVerifierCiphertext
        expiresAt := record.expiresAt
        consumedAt := record.consumedAt }).toOption

/-- The transaction that the hash of a state claims at a reading of the clock. -/
def OAuthStore.claimedLink (store : OAuthStore) (stateHash : String) (consumedAt : Instant) :
    Option IdentityLinkTransaction :=
  ((store.transactions .link).find? (·.openFor stateHash consumedAt)).bind fun record =>
    identityLinkOf (record.consumed consumedAt)

/-- The command claims a transaction of its provider, and the verifier of the transaction
can be decrypted. -/
structure PresentsLink (ports : OAuthPorts) (command : CompleteIdentityLinkCommand)
    (consumedAt : Instant) (store : OAuthStore) (verifier : String) : Prop where
  state : command.state ≠ ""
  authorizationCode : command.authorizationCode ≠ ""
  claimed : ∃ transaction,
    store.claimedLink (ports.hashToken command.state) consumedAt = some transaction ∧
      transaction.fields.provider = command.provider ∧
      ports.decryptSecret transaction.fields.codeVerifierCiphertext = some verifier

/-- A completion with the store to itself: it reads one clock, and hears what the client
makes of the answers of the endpoints. -/
structure LinkCompletion (ports : OAuthPorts) (provider : LoginIdentityProvider)
    (client : OAuthClient) (isDigit : Char → Bool) (endpoints : OAuthEndpoints)
    (consumedAt : Instant) (command : CompleteIdentityLinkCommand) (start : OAuthStore)
    (inputs : List (Input oauth)) (outcome : Except OAuthFailure LoginIdentity)
    (store : OAuthStore) : Prop where
  runs : (OAuthUseCase.completeIdentityLink ports provider command).Runs start inputs outcome
    store
  clock : ∀ answer : Instant,
    Input.heard (I := oauth) (.auth (.console .now)) answer ∈ inputs → answer = consumedAt
  resolved : ∀ (code verifier : String) (answer : Except Failure String),
    Input.heard (I := oauth) (.resolveSubject provider code verifier) answer ∈ inputs →
      answer = client.resolveSubject isDigit endpoints code verifier

/-- The row of an identity. -/
def LoginIdentityFields.record (identity : LoginIdentityFields) : LoginIdentityRecord :=
  ⟨identity.id, identity.userId, StrEnum.value identity.provider, identity.providerSubject⟩

/-- Either the identity of the resolved subject is stored and returned, or the completion is
rejected, with no identity and no audit event written. -/
inductive FailsClosed (resolved : String → Prop) (start store : OAuthStore) :
    Except OAuthFailure LoginIdentity → Prop
  | linked {identity : LoginIdentity} (hsubject : resolved identity.fields.providerSubject)
      (hstored : store.accounts.database.tables.loginIdentities =
        start.accounts.database.tables.loginIdentities ++ [identity.fields.record]) :
      FailsClosed resolved start store (.ok identity)
  | rejected {message : String}
      (hidentities : store.accounts.database.tables.loginIdentities =
        start.accounts.database.tables.loginIdentities)
      (hauditEvents : store.accounts.database.tables.auditEvents =
        start.accounts.database.tables.auditEvents) :
      FailsClosed resolved start store (.error (.identityLinkCompletionRejected message))

section Steps

variable {start store : OAuthStore} {inputs : List (Input oauth)}

/-- A claim leaves every column alone that a constraint reads. -/
theorem exists_of_mem_claimed {transactions : OAuthTables} {purpose other : OAuthPurpose}
    {stateHash : String} {consumedAt : Instant} {row : OAuthTransactionRecord other.Owner}
    (hrow : row ∈ Function.update transactions purpose
      (Relational.update (·.openFor stateHash consumedAt) (·.consumed consumedAt)
        (transactions purpose)) other) :
    ∃ old ∈ transactions other, row.provider = old.provider ∧ row.owner = old.owner := by
  by_cases hother : other = purpose
  · subst hother
    rw [Function.update_self] at hrow
    rcases mem_update.mp hrow with ⟨hrow, _⟩ | ⟨old, hold, _, rfl⟩
    · exact ⟨row, hrow, rfl, rfl⟩
    · exact ⟨old, hold, rfl, rfl⟩
  · rw [Function.update_of_ne hother] at hrow
    exact ⟨row, hrow, rfl, rfl⟩

/-- A claim leaves a unique column unique. -/
theorem uniqueOn_claimed {κ : Type} {transactions : OAuthTables} {purpose other : OAuthPurpose}
    {stateHash : String} {consumedAt : Instant} {column : OAuthTransactionRecord other.Owner → κ}
    (hcolumn : ∀ row : OAuthTransactionRecord other.Owner,
      column (row.consumed consumedAt) = column row)
    (hunique : UniqueOn column (transactions other)) :
    UniqueOn column (Function.update transactions purpose
      (Relational.update (·.openFor stateHash consumedAt) (·.consumed consumedAt)
        (transactions purpose)) other) := by
  by_cases hother : other = purpose
  · subst hother
    rw [Function.update_self, UniqueOn, map_update hcolumn]
    exact hunique
  · rw [Function.update_of_ne hother]
    exact hunique

/-- The statement of `consume` violates no constraint, so it always commits. -/
theorem consume_commits (store : OAuthStore) (purpose : OAuthPurpose) (stateHash : String)
    (consumedAt : Instant) : ∃ after,
      OAuthWrite.apply (.consume purpose stateHash consumedAt) store = some after ∧
        after.accounts = store.accounts := by
  have hconstraints : OAuthConstraints store.accounts.database.tables
      (Function.update store.transactions purpose
        (Relational.update (·.openFor stateHash consumedAt) (·.consumed consumedAt)
          (store.transactions purpose))) := by
    constructor
    · intro other
      exact uniqueOn_claimed (fun _ => rfl) (store.constraints.id other)
    · intro other
      exact uniqueOn_claimed (fun _ => rfl) (store.constraints.stateHash other)
    · intro other row hrow
      obtain ⟨old, hold, hprovider, _⟩ := exists_of_mem_claimed hrow
      rw [hprovider]
      exact store.constraints.provider other old hold
    · intro row hrow
      obtain ⟨old, hold, _, howner⟩ := exists_of_mem_claimed hrow
      rw [howner]
      exact store.constraints.user old hold
  refine ⟨⟨store.accounts, _, hconstraints⟩, ?_, rfl⟩
  exact dif_pos hconstraints

/-- `consume` alone: it answers with the transaction that the state claims, and the accounts
stay as they are. -/
theorem consumeIdentityLink_runs {stateHash : String} {consumedAt : Instant}
    {outcome : Except OAuthFailure (Option IdentityLinkTransaction)}
    (hruns : (OAuthUseCase.consumeIdentityLink stateHash consumedAt).Runs start inputs outcome
      store) :
    inputs = [] ∧ outcome = .ok (start.claimedLink stateHash consumedAt) ∧
      store.accounts = start.accounts := by
  obtain ⟨after, happly, haccounts⟩ := consume_commits start .link stateHash consumedAt
  unfold OAuthStore.claimedLink
  rcases Execution.Runs.commit_cases hruns with ⟨hnone, -⟩ | ⟨claimed, hclaimed, hrest⟩
  · change OAuthWrite.apply (.consume .link stateHash consumedAt) start = none at hnone
    rw [happly] at hnone
    cases hnone
  · change OAuthWrite.apply (.consume .link stateHash consumedAt) start = some claimed
      at hclaimed
    rw [happly] at hclaimed
    cases hclaimed
    have hreceipt : oauth.receipt (.consume .link stateHash consumedAt) start =
        ((start.transactions .link).find? (·.openFor stateHash consumedAt)).map
          (·.consumed consumedAt) := rfl
    rw [hreceipt] at hrest
    cases hrow : (start.transactions .link).find? (·.openFor stateHash consumedAt) with
    | none =>
        rw [hrow] at hrest
        obtain ⟨hinputs, houtcome, rfl⟩ := hrest
        exact ⟨hinputs, houtcome, haccounts⟩
    | some row =>
        rw [hrow] at hrest
        obtain ⟨hinputs, houtcome, rfl⟩ := hrest
        exact ⟨hinputs, houtcome, haccounts⟩

theorem link_commits {identity : LoginIdentityRecord} {auditEvent : AuditEvent}
    (happly : OAuthWrite.apply (.auth (.account (.link identity auditEvent))) start =
      some store) :
    store.accounts.database.tables.loginIdentities =
      start.accounts.database.tables.loginIdentities ++ [identity] := by
  obtain ⟨accounts, haccounts, hcommit⟩ := Option.bind_eq_some_iff.mp happly
  obtain ⟨database, hdatabase, rfl⟩ := Option.map_eq_some_iff.mp haccounts
  rw [(OAuthStore.commit_eq_some hcommit).1, AccountWrite.apply_eq_some.mp hdatabase]
  rfl

/-- `LinkVerifiedIdentity.execute` alone: it stores the identity that it returns, or is
rejected and changes nothing. -/
theorem linkVerifiedIdentity_runs {command : LinkVerifiedIdentityCommand}
    {outcome : Except OAuthFailure LoginIdentity}
    (hruns : (OAuthUseCase.ofAuth (AuthUseCase.linkVerifiedIdentity command)).Runs start inputs
      outcome store) :
    (∃ identity, outcome = .ok identity ∧
      identity.fields.providerSubject = command.verifiedProviderSubject ∧
      store.accounts.database.tables.loginIdentities =
        start.accounts.database.tables.loginIdentities ++ [identity.fields.record]) ∨
      outcome =
          .error (.raised ⟨.identityLinkRejected, "Identity could not be linked."⟩) ∧
        store = start := by
  unfold OAuthUseCase.ofAuth AuthUseCase.linkVerifiedIdentity at hruns
  by_cases hemail : command.provider = .email
  · rw [if_pos hemail] at hruns
    obtain ⟨-, houtcome, hstore⟩ := hruns
    exact Or.inr ⟨houtcome, hstore⟩
  rw [if_neg hemail] at hruns
  by_cases hactive : start.accounts.database.userStatus command.actorId = some .active
  · change (Execution.bind (Execution.attempt (Execution.embed authInOAuth
      (if start.accounts.database.userStatus command.actorId ≠ some .active then _
        else _))) _).Runs start inputs outcome store at hruns
    rw [if_neg (not_not.mpr hactive)] at hruns
    obtain ⟨id, rest, rfl, hruns⟩ := hruns
    dsimp only [pure, Execution.bind] at hruns
    cases hidentity : Validated.make LoginIdentityFields.postInit
      ⟨authInOAuth.name id, command.actorId, command.provider,
        command.verifiedProviderSubject⟩ with
    | error message =>
        rw [hidentity] at hruns
        obtain ⟨-, houtcome, hstore⟩ := hruns
        exact Or.inr ⟨houtcome, hstore⟩
    | ok identity =>
        rw [hidentity] at hruns
        obtain ⟨auditId, rest', rfl, hruns⟩ := hruns
        have hfields := Validated.make_eq_ok.mp hidentity
        rcases Execution.Runs.commit_cases hruns with ⟨-, hruns⟩ | ⟨after, happly, hruns⟩
        · obtain ⟨-, houtcome, hstore⟩ := hruns
          exact Or.inr ⟨houtcome, hstore⟩
        · obtain ⟨-, houtcome, rfl⟩ := hruns
          have hstored := link_commits happly
          exact Or.inl ⟨identity, houtcome, by rw [hfields], hstored⟩
  · change (Execution.bind (Execution.attempt (Execution.embed authInOAuth
      (if start.accounts.database.userStatus command.actorId ≠ some .active then _
        else _))) _).Runs start inputs outcome store at hruns
    rw [if_pos hactive] at hruns
    obtain ⟨-, houtcome, hstore⟩ := hruns
    exact Or.inr ⟨houtcome, hstore⟩

/-- The `try` block alone: a verifier that cannot be decrypted, an exception of the client,
or what the linker does with the resolved subject. -/
theorem linkSubject_runs {ports : OAuthPorts} {provider : LoginIdentityProvider}
    {command : CompleteIdentityLinkCommand} {transaction : IdentityLinkTransaction}
    {outcome : Except OAuthFailure LoginIdentity}
    (hruns : (OAuthUseCase.linkSubject ports provider command transaction).Runs start inputs
      outcome store) :
    match ports.decryptSecret transaction.fields.codeVerifierCiphertext with
    | none => store = start ∧ outcome = .error (.raised ⟨.valueError,
        "Opaque value ciphertext could not be decrypted."⟩)
    | some verifier => ∃ (answer : Except Failure String) (rest : List (Input oauth)),
        inputs = .heard (.resolveSubject provider command.authorizationCode verifier) answer ::
          rest ∧
        match answer with
        | .error failure => store = start ∧ outcome = .error (.raised failure)
        | .ok subject =>
            (OAuthUseCase.ofAuth (AuthUseCase.linkVerifiedIdentity {
              actorId := transaction.fields.userId
              provider := transaction.fields.provider
              verifiedProviderSubject := subject
              correlationId := command.correlationId })).Runs start rest outcome store := by
  unfold OAuthUseCase.linkSubject OAuthUseCase.decryptSecret at hruns
  cases hverifier : ports.decryptSecret transaction.fields.codeVerifierCiphertext with
  | none =>
      rw [hverifier] at hruns
      obtain ⟨-, houtcome, hstore⟩ := hruns
      exact ⟨hstore, houtcome⟩
  | some verifier =>
      rw [hverifier] at hruns
      obtain ⟨answer, rest, hinputs, hruns⟩ := hruns
      refine ⟨answer, rest, hinputs, ?_⟩
      cases answer with
      | error failure =>
          obtain ⟨-, houtcome, hstore⟩ := hruns
          exact ⟨hstore, houtcome⟩
      | ok subject => exact hruns

end Steps

section Completion

variable {ports : OAuthPorts} {provider : LoginIdentityProvider} {client : OAuthClient}
variable {isDigit : Char → Bool} {endpoints : OAuthEndpoints} {consumedAt : Instant}
variable {command : CompleteIdentityLinkCommand} {start store : OAuthStore}
variable {inputs : List (Input oauth)} {outcome : Except OAuthFailure LoginIdentity}

/-- A rejection that leaves the accounts as they are fails closed. -/
theorem FailsClosed.of_accounts {resolved : String → Prop} {message : String}
    (haccounts : store.accounts = start.accounts) :
    FailsClosed resolved start store (.error (.identityLinkCompletionRejected message)) :=
  FailsClosed.rejected (by rw [haccounts]) (by rw [haccounts])

/-- What a command presents that claims a transaction of its provider. -/
theorem presentsLink_iff {transaction : IdentityLinkTransaction} {verifier : String}
    (hempty : ¬(command.state = "" ∨ command.authorizationCode = ""))
    (htransaction : start.claimedLink (ports.hashToken command.state) consumedAt =
      some transaction)
    (hprovider : transaction.fields.provider = command.provider) :
    PresentsLink ports command consumedAt start verifier ↔
      ports.decryptSecret transaction.fields.codeVerifierCiphertext = some verifier := by
  obtain ⟨hstate, hcode⟩ := not_or.mp hempty
  constructor
  · rintro ⟨-, -, other, hclaimed, -, hverifier⟩
    rw [htransaction] at hclaimed
    cases hclaimed
    exact hverifier
  · intro hverifier
    exact ⟨hstate, hcode, transaction, htransaction, hprovider, hverifier⟩

/-- What `CompleteIdentityLink.execute` does alone: it rejects a command that presents no
verifier; otherwise the client decides. -/
theorem LinkCompletion.cases (hcompletion : LinkCompletion ports provider client isDigit
    endpoints consumedAt command start inputs outcome store) :
    FailsClosed (fun subject => ∃ verifier,
        PresentsLink ports command consumedAt start verifier ∧
          client.resolveSubject isDigit endpoints command.authorizationCode verifier =
            .ok subject) start store outcome ∧
      (∀ verifier failure, PresentsLink ports command consumedAt start verifier →
        client.resolveSubject isDigit endpoints command.authorizationCode verifier ≠
          .error failure) ∨
    ∃ verifier failure, PresentsLink ports command consumedAt start verifier ∧
      client.resolveSubject isDigit endpoints command.authorizationCode verifier =
        .error failure ∧
      outcome = .error (.raised failure) := by
  have hruns := hcompletion.runs
  unfold OAuthUseCase.completeIdentityLink at hruns
  by_cases hempty : command.state = "" ∨ command.authorizationCode = ""
  · rw [if_pos hempty] at hruns
    obtain ⟨-, rfl, rfl⟩ := hruns
    refine Or.inl ⟨FailsClosed.rejected rfl rfl, ?_⟩
    intro verifier failure hpresents
    rcases hempty with hstate | hcode
    · exact absurd hstate hpresents.state
    · exact absurd hcode hpresents.authorizationCode
  rw [if_neg hempty] at hruns
  obtain ⟨now, rest, rfl, hrest⟩ := Execution.runs_ask_bind.mp hruns
  clear hruns
  have hnow : now = consumedAt := hcompletion.clock now List.mem_cons_self
  subst hnow
  obtain ⟨first, second, claimed, transaction, rfl, hclaim, hruns⟩ |
    ⟨error, hclaim, -⟩ := Execution.runs_bind.mp hrest
  swap
  · cases (consumeIdentityLink_runs hclaim).2.1
  clear hrest
  obtain ⟨rfl, htransaction, haccounts⟩ := consumeIdentityLink_runs hclaim
  cases htransaction
  cases htransaction : start.claimedLink (ports.hashToken command.state) now with
  | none =>
      rw [htransaction] at hruns
      obtain ⟨-, rfl, rfl⟩ := hruns
      refine Or.inl ⟨FailsClosed.of_accounts haccounts, ?_⟩
      rintro verifier failure ⟨-, -, transaction, hclaimed, -⟩
      rw [htransaction] at hclaimed
      cases hclaimed
  | some transaction =>
      rw [htransaction] at hruns
      by_cases hprovider : transaction.fields.provider = command.provider
      · dsimp only at hruns
        rw [if_neg (not_not.mpr hprovider)] at hruns
        obtain ⟨heard, tail, middle, result, rfl, hlink, hanswer⟩ :=
          Execution.runs_attempt_bind.mp hruns
        clear hruns
        have hpresents : ∀ verifier, PresentsLink ports command now start verifier ↔
            ports.decryptSecret transaction.fields.codeVerifierCiphertext = some verifier :=
          fun verifier => presentsLink_iff hempty htransaction hprovider
        have hstep := linkSubject_runs hlink
        cases hverifier : ports.decryptSecret transaction.fields.codeVerifierCiphertext with
        | none =>
            rw [hverifier] at hstep
            obtain ⟨rfl, rfl⟩ := hstep
            obtain ⟨-, rfl, rfl⟩ := hanswer
            refine Or.inl ⟨FailsClosed.of_accounts haccounts, ?_⟩
            intro verifier failure hverified
            rw [(hpresents verifier).mp hverified] at hverifier
            cases hverifier
        | some verifier =>
            have hverified := (hpresents verifier).mpr hverifier
            rw [hverifier] at hstep
            obtain ⟨answer, later, rfl, hstep⟩ := hstep
            have hresolved : answer = client.resolveSubject isDigit endpoints
                command.authorizationCode verifier :=
              hcompletion.resolved _ _ _ (by simp)
            cases answer with
            | error failure =>
                obtain ⟨rfl, rfl⟩ := hstep
                have hclass := OAuthClient.resolveSubject_error hresolved.symm
                dsimp only at hanswer
                rw [if_neg (by rw [hclass]; decide)] at hanswer
                exact Or.inr ⟨verifier, failure, hverified, hresolved.symm, hanswer.2.1⟩
            | ok subject =>
                have hother : ∀ other failure,
                    PresentsLink ports command now start other →
                      client.resolveSubject isDigit endpoints command.authorizationCode other ≠
                        .error failure := by
                  intro other failure hother hfailed
                  rw [(hpresents other).mp hother] at hverifier
                  cases hverifier
                  rw [hfailed] at hresolved
                  cases hresolved
                rcases linkVerifiedIdentity_runs hstep with
                  ⟨identity, rfl, hsubject, hstored⟩ | ⟨rfl, rfl⟩
                · obtain ⟨-, rfl, rfl⟩ := hanswer
                  rw [haccounts] at hstored
                  have hvouched : ∃ verifier, PresentsLink ports command now start verifier ∧
                      client.resolveSubject isDigit endpoints command.authorizationCode
                        verifier = .ok identity.fields.providerSubject := by
                    refine ⟨verifier, hverified, ?_⟩
                    rw [← hresolved, hsubject]
                  exact Or.inl ⟨FailsClosed.linked hvouched hstored, hother⟩
                · obtain ⟨-, rfl, rfl⟩ := hanswer
                  exact Or.inl ⟨FailsClosed.of_accounts haccounts, hother⟩
      · dsimp only at hruns
        rw [if_pos hprovider] at hruns
        obtain ⟨-, rfl, rfl⟩ := hruns
        refine Or.inl ⟨FailsClosed.of_accounts haccounts, ?_⟩
        rintro verifier failure ⟨-, -, other, hclaimed, hother, -⟩
        rw [htransaction] at hclaimed
        cases hclaimed
        exact absurd hother hprovider

end Completion

namespace Scenario

/-- The client of the Discord application. -/
def discordClient : OAuthClient :=
  .discord ⟨"console", "secret", "https://console.example/callback"⟩

/-- Endpoints that vouch for a Discord user, and endpoints that cannot be reached. -/
def discordUser : OAuthEndpoints where
  token _ := .response 200 (some (.object [("access_token", .text "access")]))
  userInfo _ := .response 200 (some (.object [("id", .text "42")]))

def unreachable : OAuthEndpoints where
  token _ := .failed
  userInfo _ := .failed

/-- The store after the start of a link. -/
def linking : OAuthStore :=
  ((OAuthStore.beforeOAuth signedUp).after oauthPorts linkStart).world.store

/-- The callback of that link. -/
def linkCallback : CompleteIdentityLinkCommand :=
  ⟨.discord, "token-12", "code", 6⟩

/-- What the completion is told when the client answers so. -/
def linkInputs (answer : Except Failure String) (names : List UUID) : List (Input oauth) :=
  [.heard (.auth (.console .now)) (0 : Instant),
    .heard (.resolveSubject .discord "code" "verifier") answer] ++
      names.map fun name => .drew name

def outage : Failure :=
  ⟨.other, "Discord OAuth verification failed."⟩

/-- A completion that replays these inputs is one with the store to itself. -/
theorem linkCompletion_of_replay {endpoints : OAuthEndpoints} {answer : Except Failure String}
    {names : List UUID} {outcome : Except OAuthFailure LoginIdentity} {store : OAuthStore}
    (hanswer : answer = discordClient.resolveSubject Char.isDigit endpoints "code" "verifier")
    (hreplay : (OAuthUseCase.completeIdentityLink oauthPorts .discord linkCallback).replay
      linking (linkInputs answer names) = some (outcome, store)) :
    LinkCompletion oauthPorts .discord discordClient Char.isDigit endpoints 0 linkCallback
      linking (linkInputs answer names) outcome store := by
  constructor
  · exact Execution.runs_of_replay hreplay
  · intro other hother
    simp only [linkInputs, List.cons_append, List.nil_append, List.mem_cons, List.mem_map,
      reduceCtorEq, and_false, exists_false, or_false] at hother
    rcases hother with hsame | hsame
    · cases hsame
      rfl
    · cases hsame
  · intro code verifier other hother
    simp only [linkInputs, List.cons_append, List.nil_append, List.mem_cons, List.mem_map,
      reduceCtorEq, and_false, exists_false, or_false] at hother
    rcases hother with hsame | hsame
    · cases hsame
    · cases hsame
      exact hanswer

/-- The client resolves the subject, or cannot reach the provider. -/
theorem linkCallback_replays :
    ((OAuthUseCase.completeIdentityLink oauthPorts .discord linkCallback).replay linking
        (linkInputs (.ok "42") [70, 71])).isSome ∧
      ((OAuthUseCase.completeIdentityLink oauthPorts .discord linkCallback).replay linking
        (linkInputs (.error outage) [])).isSome ∧
      ((OAuthUseCase.completeIdentityLink oauthPorts .discord linkCallback).replay linking
        (linkInputs (.error outage) [])).map (·.1) =
          some (.error (.raised outage)) := by
  decide +kernel

end Scenario

end MuxivoConsole
