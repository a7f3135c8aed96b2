/-
Every request around OAuth keeps to what it may ask for.
-/
import MuxivoConsole.Guarantees.OAuthUseCases

namespace MuxivoConsole

open Interleaving

section Flows

variable {ports : OAuthPorts} {request : HttpRequest} {provider : LoginIdentityProvider}
  {state code : String} {guard : OAuthTrace → Action oauth → Prop} {trace : OAuthTrace}

theorem oauthNow_promises (hcall : guard trace (.call (.auth (.console .now)))) :
    OAuthUseCase.now.Promises guard
      (fun after (now : Instant) => after = trace ++ [.heard (.auth (.console .now)) now]) trace :=
  oauthAsk_promises _ hcall

theorem issueToken_promises (hcall : guard trace (.call (.auth (.console .issueToken)))) :
    OAuthUseCase.issueToken.Promises guard
      (fun after (token : String) =>
        after = trace ++ [.heard (.auth (.console .issueToken)) token]) trace :=
  oauthAsk_promises _ hcall

theorem encryptSecret_promises {plaintext : String}
    (hcall : guard trace (.call (.encryptSecret plaintext))) :
    (OAuthUseCase.encryptSecret plaintext).Promises guard
      (fun after (ciphertext : List UInt8) =>
        after = trace ++ [.heard (.encryptSecret plaintext) ciphertext]) trace :=
  oauthAsk_promises _ hcall

theorem enforceAuthRateLimit_promises {scope : String}
    (hcall : guard trace (.call (.checkRateLimit scope (request.clientHost.getD "unknown")))) :
    (OAuthUseCase.enforceAuthRateLimit request scope).Promises guard
      (fun after _ => ∃ allowed : Bool, after =
        trace ++ [.heard (.checkRateLimit scope (request.clientHost.getD "unknown")) allowed])
      trace := by
  unfold OAuthUseCase.enforceAuthRateLimit
  refine (oauthAsk_promises _ hcall).bind ?_
  rintro after allowed rfl
  split
  · exact Execution.promises_pure ⟨allowed, rfl⟩
  · exact Execution.promises_raise

/-- A result that is not returned is raised. -/
theorem attempt_promises {α : Type} {useCase : OAuthUseCase α}
    (hpromises : useCase.Promises guard (fun _ _ => True) trace) :
    (useCase.attempt : OAuthUseCase (Except OAuthFailure α)).Promises guard
      (fun _ _ => True) trace :=
  (Execution.Promises.of_keeps hpromises.keeps.attempt).mono fun _ _ _ => trivial

theorem returning_promises {α : Type} {tag : α → OAuthOutcome} {useCase : OAuthUseCase α}
    (hpromises : useCase.Promises guard (fun _ _ => True) trace) :
    (OAuthUseCase.returning tag useCase).Promises guard (fun _ _ => True) trace := by
  unfold OAuthUseCase.returning
  exact hpromises.bind fun _ _ _ => Execution.promises_pure trivial

/-- The inserted row is that of the first token that the start issued. -/
theorem beginExternalIdentityLink_promises :
    (OAuthUseCase.beginExternalIdentityLink ports request provider).Promises
      (OAuthJustified ports (.beginIdentityLink request provider)) (fun _ _ => True) [] := by
  unfold OAuthUseCase.beginExternalIdentityLink
  split
  · exact Execution.promises_raise
  · rename_i actorId hactor
    split
    · exact Execution.promises_raise
    · refine (attempt_promises ?_).bind ?_
      · unfold OAuthUseCase.beginIdentityLink
        split
        · exact Execution.promises_raise
        · refine Execution.promises_select.bind ?_
          rintro _ status ⟨moment, world, rfl, -⟩
          split
          · exact Execution.promises_raise
          · refine (oauthNow_promises (.call rfl)).bind ?_
            rintro _ now rfl
            refine (issueToken_promises (.call rfl)).bind ?_
            rintro _ issued rfl
            refine (issueToken_promises (.call rfl)).bind ?_
            rintro _ codeVerifier rfl
            refine oauthNewIdentifier_promises.bind ?_
            rintro _ id rfl
            refine (encryptSecret_promises (.call rfl)).bind ?_
            rintro _ ciphertext rfl
            refine (oauthOrValueError_promises _).bind ?_
            rintro _ transaction ⟨rfl, hmade⟩
            have hfields := Validated.make_eq_ok.mp hmade
            refine oauthNewIdentifier_promises.bind ?_
            rintro _ auditId rfl
            rw [hfields]
            refine (Execution.promises_save
              (.start ⟨provider, issued, .link hactor rfl rfl, rfl, rfl⟩)).bind ?_
            intro _ created _
            split
            · exact Execution.promises_raise
            · exact Execution.promises_pure trivial
      · intro _ started _
        split
        · exact Execution.promises_pure trivial
        · exact Execution.promises_raise
        · exact Execution.promises_raise

theorem beginOAuthLoginRoute_promises :
    (OAuthUseCase.beginOAuthLoginRoute ports request provider).Promises
      (OAuthJustified ports (.beginOAuthLogin request provider)) (fun _ _ => True) [] := by
  unfold OAuthUseCase.beginOAuthLoginRoute
  refine (enforceAuthRateLimit_promises (.call rfl)).bind ?_
  rintro _ _ ⟨allowed, rfl⟩
  split
  · exact Execution.promises_raise
  · refine (attempt_promises ?_).bind ?_
    · unfold OAuthUseCase.beginOAuthLogin
      split
      · exact Execution.promises_raise
      · refine (issueToken_promises (.call rfl)).bind ?_
        rintro _ issued rfl
        refine (issueToken_promises (.call rfl)).bind ?_
        rintro _ codeVerifier rfl
        refine oauthNewIdentifier_promises.bind ?_
        rintro _ id rfl
        refine (encryptSecret_promises (.call rfl)).bind ?_
        rintro _ ciphertext rfl
        refine (oauthNow_promises (.call rfl)).bind ?_
        rintro _ now rfl
        refine (oauthOrValueError_promises _).bind ?_
        rintro _ transaction ⟨rfl, hmade⟩
        have hfields := Validated.make_eq_ok.mp hmade
        refine oauthNewIdentifier_promises.bind ?_
        rintro _ auditId rfl
        rw [hfields]
        refine (Execution.promises_save
          (.start ⟨provider, issued, .login rfl rfl, rfl, rfl⟩)).bind ?_
        intro _ created _
        split
        · exact Execution.promises_raise
        · exact Execution.promises_pure trivial
    · intro _ started _
      split
      · exact Execution.promises_pure trivial
      · exact Execution.promises_raise
      · exact Execution.promises_raise

/-- What signing in asks of the accounts: the insertion of a session. -/
inductive InsertsSession : Action auth → Prop
  | call {called} : InsertsSession (.call called)
  | insert {session auditEvent} :
      InsertsSession (.commit (.account (.createSession session auditEvent)))

/-- What linking asks of the accounts: the insertion of an identity of the command's user and
provider. -/
inductive InsertsIdentity (command : LinkVerifiedIdentityCommand) : Action auth → Prop
  | call {called} : InsertsIdentity command (.call called)
  | insert {identity auditEvent} (huser : identity.userId = command.actorId)
      (hprovider : identity.provider = StrEnum.value command.provider) :
      InsertsIdentity command (.commit (.account (.link identity auditEvent)))

theorem linkVerifiedIdentity_inserts (command : LinkVerifiedIdentityCommand) :
    (AuthUseCase.linkVerifiedIdentity command).Ensures
      (fun _ action => InsertsIdentity command action) (fun _ _ => True) [] := by
  unfold AuthUseCase.linkVerifiedIdentity
  split
  · exact Execution.ensures_raise
  · refine Execution.ensures_select.bind ?_
    intro _ status _
    split
    · exact Execution.ensures_raise
    · refine authNewIdentifier_ensures.bind ?_
      intro _ id _
      split
      · exact Execution.ensures_raise
      · rename_i identity hidentity
        have hfields := Validated.make_eq_ok.mp hidentity
        refine authNewIdentifier_ensures.bind ?_
        intro _ auditId _
        rw [hfields]
        refine (transact_ensures (.insert rfl rfl)).bind ?_
        intro _ linked _
        split
        · exact Execution.ensures_pure trivial
        · exact Execution.ensures_raise

/-- A code is exchanged right behind the claim of the state, and a session is inserted behind it. -/
theorem completeOAuthLogin_promises {correlationId : UUID} {clientIp userAgent : Option String} :
    (OAuthUseCase.completeOAuthLogin ports provider
      ⟨provider, state, code, correlationId, clientIp, userAgent⟩).Promises
      (OAuthJustified ports (.callback request provider state code)) (fun _ _ => True) trace := by
  unfold OAuthUseCase.completeOAuthLogin
  split
  · exact Execution.promises_raise
  · refine (oauthNow_promises (.call rfl)).bind ?_
    rintro _ consumedAt rfl
    refine (consumeOAuthLogin_promises .claim).bind ?_
    intro claimed found hfound
    cases found with
    | none => exact Execution.promises_raise
    | some transaction =>
        obtain ⟨moment, row, rfl, hrow⟩ := hfound transaction rfl
        dsimp only
        split
        · exact Execution.promises_raise
        · rename_i hsame
          rw [not_not.mp hsame] at hrow
          refine (attempt_promises ?_).bind ?_
          · unfold OAuthUseCase.signInSubject
            refine (decryptSecret_promises _).bind ?_
            rintro _ verifier rfl
            rw [List.append_assoc]
            refine (resolveSubject_promises (.exchange hrow)).bind ?_
            intro resolved providerSubject hgrown
            refine Execution.promises_select.bind ?_
            rintro _ userId ⟨moment', world, rfl, -⟩
            split
            · exact Execution.promises_raise
            · refine ofAuth_promises (@createBrowserSession_ensures _ _
                (fun _ action => InsertsSession action) (fun _ _ => .call) _
                fun _ _ _ _ _ _ => .insert) ?_
              intro after action hlater hinserted
              cases hinserted with
              | call => exact .call rfl
              | insert =>
                  have hclaimed : Claimed ports .login state row resolved :=
                    ⟨moment, consumedAt, hgrown.subset (by simp [Claim])⟩
                  exact .signIn (hclaimed.mono ((List.prefix_append _ _).trans hlater))
          · intro _ signedIn _
            split
            · exact Execution.promises_pure trivial
            · exact Execution.promises_raise

theorem completeIdentityLink_promises {correlationId : UUID} :
    (OAuthUseCase.completeIdentityLink ports provider
      ⟨provider, state, code, correlationId⟩).Promises
      (OAuthJustified ports (.callback request provider state code)) (fun _ _ => True) trace := by
  unfold OAuthUseCase.completeIdentityLink
  split
  · exact Execution.promises_raise
  · refine (oauthNow_promises (.call rfl)).bind ?_
    rintro _ consumedAt rfl
    refine (consumeIdentityLink_promises .claim).bind ?_
    intro claimed found hfound
    cases found with
    | none => exact Execution.promises_raise
    | some transaction =>
        obtain ⟨moment, row, rfl, howner, hrow⟩ := hfound transaction rfl
        dsimp only
        split
        · exact Execution.promises_raise
        · rename_i hsame
          refine (attempt_promises ?_).bind ?_
          · unfold OAuthUseCase.linkSubject
            refine (decryptSecret_promises _).bind ?_
            rintro _ verifier rfl
            rw [List.append_assoc]
            refine (resolveSubject_promises (.exchange (not_not.mp hsame ▸ hrow))).bind ?_
            intro resolved providerSubject hgrown
            refine ofAuth_promises (linkVerifiedIdentity_inserts _) ?_
            intro after action hlater hinserted
            cases hinserted with
            | call => exact .call rfl
            | insert huser hnamed =>
                have hclaimed : Claimed ports .link state row resolved :=
                  ⟨moment, consumedAt, hgrown.subset (by simp [Claim])⟩
                exact .link (hclaimed.mono hlater) (huser.trans howner) (hnamed.trans hrow.symm)
          · intro _ linked _
            split
            · exact Execution.promises_pure trivial
            · split
              · exact Execution.promises_raise
              · exact Execution.promises_raise
            · exact Execution.promises_raise

theorem callback_promises :
    (OAuthUseCase.completeExternalIdentityLinkCallback ports request provider state code).Promises
      (OAuthJustified ports (.callback request provider state code)) (fun _ _ => True) [] := by
  unfold OAuthUseCase.completeExternalIdentityLinkCallback
  refine (enforceAuthRateLimit_promises (.call rfl)).bind ?_
  rintro _ _ ⟨allowed, rfl⟩
  have hlogin : ∀ trace, (OAuthUseCase.completeOAuthLoginIfValid ports request provider state
      code).Promises (OAuthJustified ports (.callback request provider state code))
        (fun _ _ => True) trace := by
    intro trace
    unfold OAuthUseCase.completeOAuthLoginIfValid
    split
    · exact Execution.promises_pure trivial
    · refine (attempt_promises (completeOAuthLogin_promises)).bind ?_
      intro _ completed _
      split
      · exact Execution.promises_pure trivial
      · exact Execution.promises_pure trivial
      · exact Execution.promises_raise
  refine (hlogin _).bind ?_
  intro after issuedSession _
  split
  · exact Execution.promises_pure trivial
  · split
    · exact Execution.promises_raise
    · refine (attempt_promises (completeIdentityLink_promises)).bind ?_
      intro _ linked _
      split
      · exact Execution.promises_pure trivial
      · exact Execution.promises_raise
      · exact Execution.promises_raise

/-- Every request keeps to what it may ask for. -/
theorem OAuthRequest.program_keeps (request : OAuthRequest) :
    (request.program ports).Keeps (OAuthJustified ports request) (fun _ _ => True) [] := by
  have hpromises : (request.program ports).Promises (OAuthJustified ports request)
      (fun _ _ => True) [] := by
    cases request with
    | beginIdentityLink request provider =>
        exact returning_promises beginExternalIdentityLink_promises
    | beginOAuthLogin request provider => exact returning_promises beginOAuthLoginRoute_promises
    | callback request provider state code => exact returning_promises callback_promises
    | account request =>
        refine returning_promises (@ofAuth_promises _ _ _ _ (fun _ => True) ?_ ?_)
        · exact .of_meets ((@AuthRequest.program_ensures ports.toAuthPorts request).meets.mono
            (fun _ _ _ => trivial) fun _ _ _ _ _ => trivial)
        · rintro after action - -
          cases action with
          | commit write => exact .account
          | call called => exact .call rfl
  exact hpromises.keeps.mono (fun _ _ hguard => hguard) fun _ _ _ => trivial

end Flows

end MuxivoConsole
