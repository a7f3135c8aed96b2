/-
What the OAuth flows may ask for, from what they have learned: a start inserts the row of
the state it issued, and a callback acts on the row that its own claim of its state gave.
-/
import MuxivoConsole.Application.OAuth
import MuxivoConsole.Guarantees.PasswordProof
import MuxivoConsole.Guarantees.PlatformSubjects

namespace MuxivoConsole

open Interleaving Relational

/-- The provider whose client a call asks to exchange a code. -/
def OAuthCall.client? : OAuthCall → Option LoginIdentityProvider
  | .resolveSubject client _ _ => some client
  | _ => none

/-- The tokens that a use case has issued, oldest first. -/
def issuedTokens (history : OAuthHistory) : List String :=
  history.filterMap fun observation =>
    match observation with
    | .heard (.auth (.console .issueToken)) token => some token
    | _ => none

/-- The readings of the clock, oldest first. -/
def clockReadings (history : OAuthHistory) : List Instant :=
  history.filterMap fun observation =>
    match observation with
    | .heard (.auth (.console .now)) now => some now
    | _ => none

/-- An execution issued the state: what it is for, for whom, with which provider, and until
when. -/
inductive Issued : OAuthRequest → OAuthHistory → (purpose : OAuthPurpose) → purpose.Owner →
    LoginIdentityProvider → String → Instant → Prop
  | link {request provider history actorId state now} (hactor : request.actorId = some actorId)
      (hstate : (issuedTokens history).head? = some state)
      (hnow : (clockReadings history).head? = some now) :
      Issued (.beginIdentityLink request provider) history .link actorId provider state
        (now + authorizationLifetime)
  | login {request provider history state now}
      (hstate : (issuedTokens history).head? = some state)
      (hnow : (clockReadings history).head? = some now) :
      Issued (.beginOAuthLogin request provider) history .login () provider state
        (now + authorizationLifetime)

section Grounds

variable (ports : OAuthPorts)

/-- The row of a state that the execution issued. -/
def Opened (request : OAuthRequest) (history : OAuthHistory) (purpose : OAuthPurpose)
    (row : OAuthTransactionRecord purpose.Owner) : Prop :=
  ∃ provider state, Issued request history purpose row.owner provider state row.expiresAt ∧
    row.provider = StrEnum.value provider ∧ row.stateHash = ports.hashToken state

/-- The answer to a claim of a state: the row that it took. -/
def Claim (purpose : OAuthPurpose) (state : String) (moment : Nat) (consumedAt : Instant)
    (row : OAuthTransactionRecord purpose.Owner) : Event oauth :=
  .wrote moment (.consume purpose (ports.hashToken state) consumedAt) (some (some row))

/-- The trace holds such a claim. -/
def Claimed (purpose : OAuthPurpose) (state : String)
    (row : OAuthTransactionRecord purpose.Owner) (trace : OAuthTrace) : Prop :=
  ∃ moment consumedAt, Claim ports purpose state moment consumedAt row ∈ trace

/-- What each execution may ask for, given its trace. -/
inductive OAuthJustified : OAuthRequest → OAuthTrace → Action oauth → Prop
  | call {request trace called} (hclient : OAuthCall.client? called = none) :
      OAuthJustified request trace (.call called)
  | start {request trace purpose row auditEvent}
      (hopened : Opened ports request (trace.map Event.observation) purpose row) :
      OAuthJustified request trace (.commit (.create purpose row auditEvent))
  | claim {request provider state code before purpose} {consumedAt : Instant} :
      OAuthJustified (.callback request provider state code)
        (before ++ [.heard (.auth (.console .now)) consumedAt])
        (.commit (.consume purpose (ports.hashToken state) consumedAt))
  | exchange {request provider state code before purpose moment row verifier}
      {consumedAt : Instant} (hprovider : row.provider = StrEnum.value provider) :
      OAuthJustified (.callback request provider state code)
        (before ++ [.heard (.auth (.console .now)) consumedAt,
          Claim ports purpose state moment consumedAt row])
        (.call (.resolveSubject provider code verifier))
  | signIn {request provider state code trace row session auditEvent}
      (hclaimed : Claimed ports .login state row trace) :
      OAuthJustified (.callback request provider state code) trace
        (.commit (.auth (.account (.createSession session auditEvent))))
  | link {request provider state code trace row identity auditEvent}
      (hclaimed : Claimed ports .link state row trace) (huser : identity.userId = row.owner)
      (hprovider : identity.provider = row.provider) :
      OAuthJustified (.callback request provider state code) trace
        (.commit (.auth (.account (.link identity auditEvent))))
  | account {request trace write} :
      OAuthJustified (.account request) trace (.commit (.auth write))

end Grounds

section Growth

theorem Issued.mono {request : OAuthRequest} {history later : OAuthHistory}
    {purpose : OAuthPurpose} {owner : purpose.Owner} {provider : LoginIdentityProvider}
    {state : String} {expiresAt : Instant}
    (hissued : Issued request history purpose owner provider state expiresAt)
    (hgrown : history <+: later) :
    Issued request later purpose owner provider state expiresAt := by
  obtain ⟨added, rfl⟩ := hgrown
  have hhead : ∀ {α : Type} {read : Observation oauth → Option α} {value : α},
      (history.filterMap read).head? = some value →
        ((history ++ added).filterMap read).head? = some value := by
    intro α read value hvalue
    rw [List.filterMap_append, List.head?_append, hvalue]
    rfl
  cases hissued with
  | link hactor hstate hnow => exact Issued.link hactor (hhead hstate) (hhead hnow)
  | login hstate hnow => exact Issued.login (hhead hstate) (hhead hnow)

variable {ports : OAuthPorts} {purpose : OAuthPurpose} {state : String}
variable {row : OAuthTransactionRecord purpose.Owner} {trace : OAuthTrace}

theorem Claimed.mono (hclaimed : Claimed ports purpose state row trace) {later : OAuthTrace}
    (hgrown : trace <+: later) : Claimed ports purpose state row later := by
  obtain ⟨moment, consumedAt, hclaim⟩ := hclaimed
  exact ⟨moment, consumedAt, hgrown.subset hclaim⟩

end Growth

section Steps

variable {guard : OAuthTrace → Action oauth → Prop} {trace : OAuthTrace}

theorem oauthAsk_promises (called : oauth.Call) (hguard : guard trace (.call called)) :
    (Execution.ask called : OAuthUseCase (oauth.Answer called)).Promises guard
      (fun after answer => after = trace ++ [.heard called answer]) trace :=
  Execution.promises_ask hguard

theorem oauthNewIdentifier_promises :
    OAuthUseCase.newIdentifier.Promises guard
      (fun after name => after = trace ++ [.drew name]) trace :=
  @Execution.promises_newName oauth OAuthFailure guard trace

theorem oauthOrValueError_promises {α : Type} (result : Except String α) :
    (OAuthUseCase.orValueError result).Promises guard
      (fun after value => after = trace ∧ result = .ok value) trace := by
  cases result with
  | ok value => exact Execution.promises_pure ⟨rfl, rfl⟩
  | error message => exact Execution.promises_raise

theorem decryptSecret_promises {ports : OAuthPorts} (ciphertext : List UInt8) :
    (OAuthUseCase.decryptSecret ports ciphertext).Promises guard
      (fun after _ => after = trace) trace := by
  unfold OAuthUseCase.decryptSecret
  split
  · exact Execution.promises_pure rfl
  · exact Execution.promises_raise

theorem resolveSubject_promises {client : LoginIdentityProvider} {code verifier : String}
    (hguard : guard trace (.call (.resolveSubject client code verifier))) :
    (OAuthUseCase.resolveSubject client code verifier).Promises guard
      (fun after _ => trace <+: after) trace := by
  unfold OAuthUseCase.resolveSubject
  refine (oauthAsk_promises _ hguard).bind ?_
  rintro after answer rfl
  cases answer with
  | ok subject => exact Execution.promises_pure (List.prefix_append _ _)
  | error failure => exact Execution.promises_raise

/-- A use case around accounts whose requests are all of a kind. -/
theorem ofAuth_promises {α : Type} {useCase : AuthUseCase α} {allowed : Action auth → Prop}
    (hensures : useCase.Ensures (fun _ action => allowed action) (fun _ _ => True) [])
    (hallowed : ∀ after action, trace <+: after → allowed action →
      guard after (authInOAuth.action action)) :
    (OAuthUseCase.ofAuth useCase).Promises guard (fun _ _ => True) trace := by
  unfold OAuthUseCase.ofAuth
  refine (Execution.Promises.of_keeps
    (hensures.meets.keeps (List.prefix_refl trace) hallowed).attempt).bind ?_
  intro after result _
  cases result with
  | ok value => exact Execution.promises_pure trivial
  | error failure => exact Execution.promises_raise

theorem claim_promises {purpose : OAuthPurpose} {stateHash : String} {consumedAt : Instant}
    (hguard : guard trace (.commit (.consume purpose stateHash consumedAt))) :
    (OAuthUseCase.claim purpose stateHash consumedAt).Promises guard
      (fun after found => ∃ moment, after =
        trace ++ [.wrote moment (.consume purpose stateHash consumedAt) (some found)])
      trace := by
  unfold OAuthUseCase.claim
  refine (@Execution.promises_transact oauth OAuthFailure guard trace
    (.consume purpose stateHash consumedAt) hguard).bind ?_
  rintro after response ⟨moment, rfl⟩
  cases response with
  | none => exact Execution.promises_raise
  | some found => exact Execution.promises_pure ⟨moment, rfl⟩

theorem consumeIdentityLink_promises {stateHash : String} {consumedAt : Instant}
    (hguard : guard trace (.commit (.consume .link stateHash consumedAt))) :
    (OAuthUseCase.consumeIdentityLink stateHash consumedAt).Promises guard
      (fun after found => ∀ transaction, found = some transaction →
        ∃ moment row, after = trace ++
            [.wrote moment (.consume .link stateHash consumedAt) (some (some row))] ∧
          transaction.fields.userId = row.owner ∧
            row.provider = StrEnum.value transaction.fields.provider) trace := by
  unfold OAuthUseCase.consumeIdentityLink
  refine (claim_promises hguard).bind ?_
  rintro after found ⟨moment, rfl⟩
  cases found with
  | none =>
      refine Execution.promises_pure ?_
      intro transaction htransaction
      cases htransaction
  | some row =>
      refine Execution.promises_pure ?_
      intro transaction htransaction
      obtain ⟨provider, hprovider, hmade⟩ := Option.bind_eq_some_iff.mp htransaction
      have hfields := Validated.make_toOption_eq_some.mp hmade
      refine ⟨moment, row, rfl, ?_, ?_⟩
      · rw [hfields]
      · rw [hfields]
        exact (StrEnum.parse?_eq_some.mp hprovider).symm

theorem consumeOAuthLogin_promises {stateHash : String} {consumedAt : Instant}
    (hguard : guard trace (.commit (.consume .login stateHash consumedAt))) :
    (OAuthUseCase.consumeOAuthLogin stateHash consumedAt).Promises guard
      (fun after found => ∀ transaction, found = some transaction →
        ∃ moment row, after = trace ++
            [.wrote moment (.consume .login stateHash consumedAt) (some (some row))] ∧
          row.provider = StrEnum.value transaction.fields.provider) trace := by
  unfold OAuthUseCase.consumeOAuthLogin
  refine (claim_promises hguard).bind ?_
  rintro after found ⟨moment, rfl⟩
  cases found with
  | none =>
      refine Execution.promises_pure ?_
      intro transaction htransaction
      cases htransaction
  | some row =>
      dsimp only
      split
      · exact Execution.promises_raise
      · rename_i provider hprovider
        refine (oauthOrValueError_promises _).bind ?_
        rintro after transaction ⟨rfl, hmade⟩
        refine Execution.promises_pure ?_
        intro returned hreturned
        cases hreturned
        refine ⟨moment, row, rfl, ?_⟩
        rw [Validated.make_eq_ok.mp hmade]
        exact (StrEnum.parse?_eq_some.mp hprovider).symm

end Steps

end MuxivoConsole
