/-
The verified registration flow: start, resend and verify.  The pending value
lives in Redis under a key made of the flow's token.
-/
import MuxivoConsole.Application.Auth
import MuxivoConsole.Application.Invitations

namespace MuxivoConsole

open Interleaving

structure StartEmailPasswordRegistrationCommand where
  email : String
  password : String
  displayName : String
  correlationId : UUID
  deriving DecidableEq

structure ResendEmailPasswordRegistrationCommand where
  token : String
  correlationId : UUID
  deriving DecidableEq

structure VerifyEmailPasswordRegistrationCommand where
  token : String
  code : String
  correlationId : UUID
  deriving DecidableEq

structure EmailPasswordRegistrationVerificationResult where
  token : Option String
  expiresInSeconds : Int
  deriving DecidableEq

/-- `lifetime`: fifteen minutes. -/
def verificationLifetime : Nat :=
  15 * 60 * 1000000

/-- `_lifetime_seconds` -/
def verificationLifetimeSeconds : Int :=
  max 60 (15 * 60)

/-- Where a block of decimal digits begins and how long it is: category `Nd`. -/
def decimalDigitBlocks : List (Nat × Nat) :=
  [(0x30, 10), (0x660, 10), (0x6f0, 10), (0x7c0, 10), (0x966, 10), (0x9e6, 10), (0xa66, 10),
    (0xae6, 10), (0xb66, 10), (0xbe6, 10), (0xc66, 10), (0xce6, 10), (0xd66, 10), (0xde6, 10),
    (0xe50, 10), (0xed0, 10), (0xf20, 10), (0x1040, 10), (0x1090, 10), (0x17e0, 10),
    (0x1810, 10), (0x1946, 10), (0x19d0, 10), (0x1a80, 10), (0x1a90, 10), (0x1b50, 10),
    (0x1bb0, 10), (0x1c40, 10), (0x1c50, 10), (0xa620, 10), (0xa8d0, 10), (0xa900, 10),
    (0xa9d0, 10), (0xa9f0, 10), (0xaa50, 10), (0xabf0, 10), (0xff10, 10), (0x104a0, 10),
    (0x10d30, 10), (0x11066, 10), (0x110f0, 10), (0x11136, 10), (0x111d0, 10), (0x112f0, 10),
    (0x11450, 10), (0x114d0, 10), (0x11650, 10), (0x116c0, 10), (0x11730, 10), (0x118e0, 10),
    (0x11950, 10), (0x11c50, 10), (0x11d50, 10), (0x11da0, 10), (0x11f50, 10), (0x16a60, 10),
    (0x16ac0, 10), (0x16b50, 10), (0x1d7ce, 50), (0x1e140, 10), (0x1e2f0, 10), (0x1e4f0, 10),
    (0x1e950, 10), (0x1fbf0, 10)]

/-- `\d` of a text pattern -/
def isDecimalDigit (character : Char) : Bool :=
  decimalDigitBlocks.any fun (first, count) =>
    first ≤ character.toNat && character.toNat < first + count

/-- `re.fullmatch(r"\d{6}", code)` -/
def isSixDigits (code : String) : Bool :=
  code.length = 6 && code.toList.all isDecimalDigit

/-- `_new_verification_code` of a drawn number -/
def verificationCode (number : Fin 1000000) : String :=
  let digits := Nat.toDigits 10 number.val
  String.ofList (List.replicate (6 - digits.length) '0' ++ digits)

/-- `_key` -/
def registrationKey (ports : AuthPorts) (rawToken : String) : String :=
  "muxivo-console:registration-verification:" ++ ports.hashToken rawToken

/-- `_code_hash` -/
def registrationCodeHash (ports : AuthPorts) (rawToken code : String) : String :=
  ports.hashToken ("registration-code:" ++ rawToken ++ ":" ++ code)

namespace AuthUseCase

section Steps

/-- `clock.now() + self.lifetime`, then `notifier.send` -/
def sendCode (registrationId : UUID) (recipientEmail verificationCode : String)
    (correlationId : UUID) : AuthUseCase (Except Failure Unit) := do
  let now ← now
  @Execution.ask auth Failure (.sendCode registrationId recipientEmail verificationCode
    (now + verificationLifetime) correlationId)

/-- `_discard_pending`: an exception of the store is only logged. -/
def discardPending (key value : String) : AuthUseCase Unit := do
  let _ ← consumeToken key value
  pure ()

/-- `_reject` -/
def rejectVerification {α : Type} : AuthUseCase α :=
  Execution.raise ⟨.emailPasswordRegistrationVerificationRejected, "E-mail verification failed."⟩

/-- The value under the flow's key, decoded: `from_json(current_value) if
current_value else None`. -/
def getPending (ports : AuthPorts) (rawToken : String) :
    AuthUseCase (Option (String × PendingEmailPasswordRegistration)) := do
  let stored ← getToken (registrationKey ports rawToken)
  let currentValue ← orRaise stored
  match currentValue with
  | none => pure none
  | some currentValue =>
      if currentValue = "" then pure none
      else pure ((ports.fromJson currentValue).map (currentValue, ·))

/-- Deliver the code of a value that was just stored; a failed delivery discards
the value and is raised as a connection failure. -/
def deliverCode (ports : AuthPorts) (pending : PendingEmailPasswordRegistration)
    (recipientEmail rawToken code : String) (correlationId : UUID) :
    AuthUseCase EmailPasswordRegistrationVerificationResult := do
  let sent ← sendCode pending.fields.registrationId recipientEmail code correlationId
  match sent with
  | .ok () => pure ⟨some rawToken, verificationLifetimeSeconds⟩
  | .error failure => do
      discardPending (registrationKey ports rawToken) (ports.toJson pending)
      if failure.errorClass = .connectionError then Execution.raise failure
      else
        Execution.raise ⟨.connectionError, "Registration verification delivery failed."⟩

end Steps

/-- `StartEmailPasswordRegistration.execute` -/
def startEmailPasswordRegistration (ports : AuthPorts)
    (command : StartEmailPasswordRegistrationCommand) :
    AuthUseCase EmailPasswordRegistrationVerificationResult := do
  let normalizedEmail ← ofConsole (UseCase.normalizeEmail ports.toPorts command.email)
  if isBlank command.displayName || command.displayName.length > 64 then
    Execution.raise ⟨.valueError, "Registration display name does not meet policy."⟩
  else if !(12 ≤ command.password.length && command.password.length ≤ 1024) then
    Execution.raise ⟨.valueError, "Registration password does not meet policy."⟩
  else
    let lookupHash := ports.lookupHash normalizedEmail
    let account ← Execution.select fun store : AuthStore =>
      store.database.accountByEmailLookupHash lookupHash
    if account.isSome then pure ⟨none, verificationLifetimeSeconds⟩
    else
      let rawToken ← issueToken
      let number ← @Execution.ask auth Failure .drawCode
      let code := verificationCode number
      let registrationId ← newIdentifier
      let emailCiphertext ← encryptEmail normalizedEmail
      let passwordHash ← hashPassword command.password
      let pending ← orValueError (Validated.make PendingEmailPasswordRegistrationFields.postInit
        { registrationId
          emailCiphertext
          emailLookupHash := lookupHash
          passwordHash
          displayName := command.displayName
          verificationCodeHash := registrationCodeHash ports rawToken code })
      let answer ← putToken (registrationKey ports rawToken) (ports.toJson pending)
        verificationLifetimeSeconds
      let stored ← orRaise answer
      if !stored then pure ⟨none, verificationLifetimeSeconds⟩
      else deliverCode ports pending normalizedEmail rawToken code command.correlationId

/-- `StartEmailPasswordRegistration.resend` -/
def resendEmailPasswordRegistration (ports : AuthPorts)
    (command : ResendEmailPasswordRegistrationCommand) :
    AuthUseCase EmailPasswordRegistrationVerificationResult := do
  let current ← getPending ports command.token
  match current with
  | none => pure ⟨none, verificationLifetimeSeconds⟩
  | some (_, pending) =>
      if pending.fields.attempts ≥ maxVerificationAttempts then
        pure ⟨none, verificationLifetimeSeconds⟩
      else
        match ports.decryptEmail pending.fields.emailCiphertext with
        | none => pure ⟨none, verificationLifetimeSeconds⟩
        | some normalizedEmail => do
            let number ← @Execution.ask auth Failure .drawCode
            let code := verificationCode number
            let rotated ← orValueError
              (Validated.make PendingEmailPasswordRegistrationFields.postInit
                { registrationId := pending.fields.registrationId
                  emailCiphertext := pending.fields.emailCiphertext
                  emailLookupHash := pending.fields.emailLookupHash
                  passwordHash := pending.fields.passwordHash
                  displayName := pending.fields.displayName
                  verificationCodeHash := registrationCodeHash ports command.token code
                  attempts := pending.fields.attempts })
            let answer ← replaceToken (registrationKey ports command.token)
              (ports.toJson rotated) verificationLifetimeSeconds
            let replaced ← orRaise answer
            if !replaced then pure ⟨none, verificationLifetimeSeconds⟩
            else
              deliverCode ports rotated normalizedEmail command.token code
                command.correlationId

/-- The `try` block of a verification: `decrypt` and `registrations.execute`. -/
def completeVerified (ports : AuthPorts) (pending : PendingEmailPasswordRegistration)
    (correlationId : UUID) : AuthUseCase Unit :=
  match ports.decryptEmail pending.fields.emailCiphertext with
  | none => rejectVerification
  | some normalizedEmail => do
      let registered ← ofConsole (UseCase.completeEmailPasswordRegistration ports.toPorts
        { normalizedEmail
          displayName := pending.fields.displayName
          passwordHash := pending.fields.passwordHash
          correlationId }) |>.attempt
      match registered with
      | .ok _ => pure ()
      | .error failure =>
          if failure.errorClass = .emailPasswordRegistrationRejected ∨
              failure.errorClass = .valueError then rejectVerification
          else Execution.raise failure

/-- `VerifyEmailPasswordRegistration.execute` -/
def verifyEmailPasswordRegistration (ports : AuthPorts)
    (command : VerifyEmailPasswordRegistrationCommand) : AuthUseCase Unit := do
  if !isUsableToken command.token || !isSixDigits command.code then rejectVerification
  else
    let current ← getPending ports command.token
    match current with
    | none => rejectVerification
    | some (currentValue, pending) =>
        if pending.fields.attempts ≥ maxVerificationAttempts then rejectVerification
        else if registrationCodeHash ports command.token command.code ≠
            pending.fields.verificationCodeHash then do
          let counted ← orValueError (pending.fields.withAttempts
            (min maxVerificationAttempts (pending.fields.attempts + 1)))
          let answer ← replaceToken (registrationKey ports command.token)
            (ports.toJson counted) verificationLifetimeSeconds
          let _ ← orRaise answer
          rejectVerification
        else do
          let answer ← consumeToken (registrationKey ports command.token) currentValue
          let consumed ← orRaise answer
          if !consumed then rejectVerification
          else completeVerified ports pending command.correlationId

end AuthUseCase

end MuxivoConsole
