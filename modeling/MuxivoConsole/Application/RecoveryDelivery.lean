/-
The recovery request once more, with each of its fallible steps told how it fares: a step
may answer `False` or raise, before or after it took effect.
-/
import MuxivoConsole.Application.Credentials

namespace MuxivoConsole

open Interleaving

/-- How a step fares; `carriedOut` says whether it took effect nevertheless. -/
inductive StepOutcome where
  | completes
  | answersFalse (carriedOut : Bool)
  | raises (carriedOut : Bool) (failure : Failure)

namespace AuthUseCase

/-- A step that fares like this. -/
def fallible (outcome : StepOutcome) (step : AuthUseCase (Except Failure Bool)) :
    AuthUseCase (Except Failure Bool) :=
  match outcome with
  | .completes => step
  | .answersFalse true => do
      let _ ← step
      pure (.ok false)
  | .answersFalse false => pure (.ok false)
  | .raises true failure => do
      let _ ← step
      pure (.error failure)
  | .raises false failure => pure (.error failure)

/-- `transactions.create`: an `IntegrityError` is the answer `False`. -/
def createRecoveryTransaction (transaction : PasswordRecoveryTransaction)
    (auditEvent : AuditEvent) : AuthUseCase (Except Failure Bool) := do
  let created ← transact (.createRecovery
    { id := transaction.fields.id
      userId := transaction.fields.userId
      tokenHash := transaction.fields.tokenHash
      expiresAt := transaction.fields.expiresAt
      consumedAt := transaction.fields.consumedAt } auditEvent)
  pure (.ok (decide (created = some true)))

/-- `RequestPasswordRecovery.execute` from `transactions.create` on. -/
def createAndSend (creating : StepOutcome) (transaction : PasswordRecoveryTransaction)
    (auditEvent : AuditEvent) (tokenKey : String) (userId : UUID)
    (recipientEmail rawToken : String) (correlationId : UUID) : AuthUseCase Unit := do
  let answer ← fallible creating (createRecoveryTransaction transaction auditEvent)
  match answer with
  | .error failure => do
      discardToken tokenKey transaction.fields.id.str
      Execution.raise failure
  | .ok created =>
      if !created then discardToken tokenKey transaction.fields.id.str
      else do
        let sent ← @Execution.ask auth Failure (.sendRecovery userId recipientEmail rawToken
          transaction.fields.expiresAt correlationId)
        match sent with
        | .ok () => pure ()
        | .error _ => discardToken tokenKey transaction.fields.id.str

theorem recoveryRequested_named : "auth.password_recovery_requested" ≠ "" ∧ "user" ≠ "" := by
  decide

/-- `RequestPasswordRecovery.execute`, where `recovery_tokens.put` and `transactions.create`
fare as told. -/
def requestPasswordRecoveryFaring (ports : AuthPorts) (storing creating : StepOutcome)
    (command : RequestPasswordRecoveryCommand) : AuthUseCase Unit := do
  let rawToken ← issueToken
  let tokenHash := ports.hashToken rawToken
  match ports.normalizeEmail command.email with
  | none => pure ()
  | some normalizedEmail => do
      let account ← Execution.select fun store : AuthStore =>
        store.database.accountByEmailLookupHash (ports.lookupHash normalizedEmail)
      match account with
      | none => pure ()
      | some account =>
          if account.fields.status ≠ .active then pure ()
          else do
            let now ← now
            let id ← newIdentifier
            let transaction ← orValueError
              (Validated.make PasswordRecoveryTransactionFields.postInit
                { id
                  userId := account.fields.userId
                  tokenHash
                  expiresAt := now + recoveryLifetime })
            let answer ← fallible storing (putToken (recoveryKey tokenHash)
              transaction.fields.id.str recoveryLifetimeSeconds)
            let stored ← orRaise answer
            if !stored then pure ()
            else do
              let auditId ← newIdentifier
              createAndSend creating transaction
                (userAudit auditId command.correlationId account.fields.userId
                  "auth.password_recovery_requested" recoveryRequested_named)
                (recoveryKey tokenHash) account.fields.userId normalizedEmail rawToken
                command.correlationId

theorem bind_congr_right {α β : Type} (execution : AuthUseCase α) {first second : α → AuthUseCase β}
    (hsame : ∀ value, first value = second value) :
    (execution >>= first) = (execution >>= second) :=
  congrArg _ (funext hsame)

/-- When every step completes it is the request as it was. -/
theorem requestPasswordRecoveryFaring_completes (ports : AuthPorts)
    (command : RequestPasswordRecoveryCommand) :
    requestPasswordRecoveryFaring ports .completes .completes command =
      requestPasswordRecovery ports command := by
  unfold requestPasswordRecoveryFaring requestPasswordRecovery
  refine bind_congr_right _ fun rawToken => ?_
  dsimp only
  cases ports.normalizeEmail command.email with
  | none => rfl
  | some normalizedEmail =>
      refine bind_congr_right _ fun account => ?_
      cases account with
      | none => rfl
      | some account =>
          dsimp only
          by_cases hstatus : account.fields.status ≠ .active
          · rw [if_pos hstatus, if_pos hstatus]
          · rw [if_neg hstatus, if_neg hstatus]
            refine bind_congr_right _ fun now => bind_congr_right _ fun id =>
              bind_congr_right _ fun transaction => bind_congr_right _ fun answer =>
                bind_congr_right _ fun stored => ?_
            cases stored with
            | false => rfl
            | true =>
                refine bind_congr_right _ fun auditId => ?_
                refine congrArg (Execution.commit _) (funext fun created => ?_)
                rcases created with _ | created
                · rfl
                · cases created with
                  | false => rfl
                  | true =>
                      refine congrArg (Execution.call _) (funext fun sent => ?_)
                      cases sent <;> rfl

end AuthUseCase

end MuxivoConsole
