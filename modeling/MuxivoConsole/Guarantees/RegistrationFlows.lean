/-
What the executions of a registration flow ask for, to the field: the value that a
start puts, the code that a resend puts in place of another, the copy that a wrong code
leaves, and the rows that a right one creates.
-/
import MuxivoConsole.Guarantees.AuthUseCases
import MuxivoConsole.Interleaving.Rollback

namespace MuxivoConsole

open Interleaving

/-- A code on its way to a mailbox. -/
structure Announcement where
  registrationId : UUID
  recipientEmail : String
  code : String
  expiresAt : Instant
  deriving DecidableEq

/-- What the notifier of registrations is asked to send. -/
def AuthCall.announcement : AuthCall → Option Announcement
  | .sendCode registrationId recipientEmail code expiresAt _ =>
      some ⟨registrationId, recipientEmail, code, expiresAt⟩
  | _ => none

/-- What the notifier was asked to send. -/
def sentAnnouncement : Observation auth → Option Announcement
  | .heard called _ => AuthCall.announcement called
  | _ => none

/-- The execution has drawn the code. -/
def DrewCode (history : AuthHistory) (code : String) : Prop :=
  ∃ number, @Observation.heard auth .drawCode number ∈ history ∧ code = verificationCode number

section Grounds

variable (ports : AuthPorts)

/-- The flow that a start begins: what it was told, drew and heard. -/
structure Started (command : StartEmailPasswordRegistrationCommand) (history : AuthHistory)
    (rawToken code normalizedEmail : String) (pending : PendingEmailPasswordRegistration) :
    Prop where
  email : ports.normalizeEmail command.email = some normalizedEmail
  token : @Observation.heard auth (.console .issueToken) rawToken ∈ history
  drew : DrewCode history code
  registrationId : @Observation.drew auth pending.fields.registrationId ∈ history
  emailCiphertext : @Observation.heard auth (.console (.encryptEmail normalizedEmail))
    pending.fields.emailCiphertext ∈ history
  emailLookupHash : pending.fields.emailLookupHash = ports.lookupHash normalizedEmail
  passwordHash : @Observation.heard auth (.hashPassword command.password)
    pending.fields.passwordHash ∈ history
  displayName : pending.fields.displayName = command.displayName
  codeHash : pending.fields.verificationCodeHash = registrationCodeHash ports rawToken code

/-- The execution read this value of its flow. -/
def ReadPending (rawToken : String) (history : AuthHistory) (value : String)
    (pending : PendingEmailPasswordRegistration) : Prop :=
  ∃ moment store, FirstRead history moment store ∧
    store.pendingOf ports rawToken = some (value, pending)

/-- A resend puts a drawn code in place of the one that it read. -/
structure Rotated (command : ResendEmailPasswordRegistrationCommand) (history : AuthHistory)
    (code recipientEmail : String) (rotated : PendingEmailPasswordRegistration) : Prop where
  drew : DrewCode history code
  read : ∃ value pending, ReadPending ports command.token history value pending ∧
    ports.decryptEmail pending.fields.emailCiphertext = some recipientEmail ∧
      rotated.fields = { pending.fields with
        verificationCodeHash := registrationCodeHash ports command.token code }

/-- A verification with a wrong code puts the value back that it read, with one attempt
more. -/
def Counted (command : VerifyEmailPasswordRegistrationCommand) (history : AuthHistory)
    (counted : PendingEmailPasswordRegistration) : Prop :=
  ∃ value pending, ReadPending ports command.token history value pending ∧
    counted.fields = { pending.fields with
      attempts := min maxVerificationAttempts (pending.fields.attempts + 1) }

/-- A verification read a value whose code is its own. -/
structure RightCode (command : VerifyEmailPasswordRegistrationCommand) (history : AuthHistory)
    (value : String) (pending : PendingEmailPasswordRegistration) : Prop where
  read : ReadPending ports command.token history value pending
  code : registrationCodeHash ports command.token command.code =
    pending.fields.verificationCodeHash

/-- The rows of the account that a pending value describes. -/
structure Registers (pending : PendingEmailPasswordRegistration) (user : UserRecord)
    (email : UserEmailRecord) (credential : PasswordCredentialRecord) : Prop where
  address : ∃ decrypted normalizedEmail,
    ports.decryptEmail pending.fields.emailCiphertext = some decrypted ∧
      ports.normalizeEmail decrypted = some normalizedEmail ∧
        email.emailLookupHash = ports.lookupHash normalizedEmail
  displayName : user.displayName = pending.fields.displayName
  passwordHash : credential.passwordHash = pending.fields.passwordHash
  emailUser : email.userId = user.id
  credentialUser : credential.userId = user.id

/-- The requests of registration flows, and time that passes. -/
def AuthRequest.OfRegistration : AuthRequest → Prop
  | startEmailPasswordRegistration _ | resendEmailPasswordRegistration _
  | verifyEmailPasswordRegistration _ | elapse _ => True
  | _ => False

instance : (request : AuthRequest) → Decidable request.OfRegistration
  | .startEmailPasswordRegistration _ | .resendEmailPasswordRegistration _
  | .verifyEmailPasswordRegistration _ | .elapse _ => isTrue trivial
  | .authenticateEmailPassword _ | .resolveBrowserSession _ | .listBrowserSessions _
  | .reauthenticateBrowserSession _ | .revokeBrowserSession _ | .revokeAllBrowserSessions _
  | .cleanupSecurityRecords _ | .requestPasswordRecovery _ | .completePasswordRecovery _
  | .changeEmailPassword _ | .linkVerifiedIdentity _ | .unlinkLoginIdentity _ => isFalse id

/-- If the choice starts an execution, the execution is one of a registration flow. -/
def AuthChoice.StartsRegistration : AuthChoice → Prop
  | .start request => request.OfRegistration
  | .advance _ _ => True

instance : (choice : AuthChoice) → Decidable choice.StartsRegistration
  | .start request => inferInstanceAs (Decidable request.OfRegistration)
  | .advance _ _ => isTrue trivial

/-- What the executions of registration flows may ask for. -/
inductive FlowJustified : AuthRequest → AuthHistory → Action auth → Prop
  | call {request history called} (hother : AuthCall.announcement called = none) :
      FlowJustified request history (.call called)
  | put {command history rawToken code normalizedEmail pending}
      (hstarted : Started ports command history rawToken code normalizedEmail pending) :
      FlowJustified (.startEmailPasswordRegistration command) history
        (.commit (.put (registrationKey ports rawToken) (ports.toJson pending)
          verificationLifetimeSeconds))
  | sendStarted {command before rawToken code normalizedEmail pending} {now : Instant}
      (hstarted : Started ports command before rawToken code normalizedEmail pending) :
      FlowJustified (.startEmailPasswordRegistration command)
        (before ++ [@Observation.heard auth (.console .now) now])
        (.call (AuthCall.sendCode pending.fields.registrationId normalizedEmail code
          (now + verificationLifetime) command.correlationId))
  | discardStarted {command history key value} :
      FlowJustified (.startEmailPasswordRegistration command) history
        (.commit (.consume key value))
  | rotate {command history code recipientEmail rotated}
      (hrotated : Rotated ports command history code recipientEmail rotated) :
      FlowJustified (.resendEmailPasswordRegistration command) history
        (.commit (.replace (registrationKey ports command.token) (ports.toJson rotated)
          verificationLifetimeSeconds))
  | sendRotated {command before code recipientEmail rotated} {now : Instant}
      (hrotated : Rotated ports command before code recipientEmail rotated) :
      FlowJustified (.resendEmailPasswordRegistration command)
        (before ++ [@Observation.heard auth (.console .now) now])
        (.call (AuthCall.sendCode rotated.fields.registrationId recipientEmail code
          (now + verificationLifetime) command.correlationId))
  | discardRotated {command history value} :
      FlowJustified (.resendEmailPasswordRegistration command) history
        (.commit (.consume (registrationKey ports command.token) value))
  | count {command history counted} (hcounted : Counted ports command history counted) :
      FlowJustified (.verifyEmailPasswordRegistration command) history
        (.commit (.replace (registrationKey ports command.token) (ports.toJson counted)
          verificationLifetimeSeconds))
  | accept {command history value pending}
      (hright : RightCode ports command history value pending) :
      FlowJustified (.verifyEmailPasswordRegistration command) history
        (.commit (.consume (registrationKey ports command.token) value))
  | register {command history value pending user identity email credential auditEvent}
      (hright : RightCode ports command history value pending)
      (hrows : Registers ports pending user email credential) :
      FlowJustified (.verifyEmailPasswordRegistration command) history
        (.commit (.console (.register user identity email credential auditEvent)))
  | elapse {duration history} :
      FlowJustified (.elapse duration) history (.commit (.elapse duration))
  | elsewhere {request history action} (hother : ¬ request.OfRegistration) :
      FlowJustified request history action

end Grounds

section Persistence

variable {ports : AuthPorts} {before after : AuthHistory}

theorem DrewCode.mono {code : String} (hdrew : DrewCode before code)
    (hextends : before <+: after) : DrewCode after code := by
  obtain ⟨number, hheard, hcode⟩ := hdrew
  exact ⟨number, hextends.subset hheard, hcode⟩

theorem Started.mono {command : StartEmailPasswordRegistrationCommand}
    {rawToken code normalizedEmail : String} {pending : PendingEmailPasswordRegistration}
    (hstarted : Started ports command before rawToken code normalizedEmail pending)
    (hextends : before <+: after) :
    Started ports command after rawToken code normalizedEmail pending where
  email := hstarted.email
  token := hextends.subset hstarted.token
  drew := hstarted.drew.mono hextends
  registrationId := hextends.subset hstarted.registrationId
  emailCiphertext := hextends.subset hstarted.emailCiphertext
  emailLookupHash := hstarted.emailLookupHash
  passwordHash := hextends.subset hstarted.passwordHash
  displayName := hstarted.displayName
  codeHash := hstarted.codeHash

theorem ReadPending.mono {rawToken value : String} {pending : PendingEmailPasswordRegistration}
    (hread : ReadPending ports rawToken before value pending) (hextends : before <+: after) :
    ReadPending ports rawToken after value pending := by
  obtain ⟨moment, store, hfirst, hpending⟩ := hread
  exact ⟨moment, store, hfirst.mono hextends, hpending⟩

theorem Rotated.mono {command : ResendEmailPasswordRegistrationCommand}
    {code recipientEmail : String} {rotated : PendingEmailPasswordRegistration}
    (hrotated : Rotated ports command before code recipientEmail rotated)
    (hextends : before <+: after) :
    Rotated ports command after code recipientEmail rotated := by
  obtain ⟨value, pending, hread, hrest⟩ := hrotated.read
  exact ⟨hrotated.drew.mono hextends, value, pending, hread.mono hextends, hrest⟩

theorem RightCode.mono {command : VerifyEmailPasswordRegistrationCommand} {value : String}
    {pending : PendingEmailPasswordRegistration}
    (hright : RightCode ports command before value pending) (hextends : before <+: after) :
    RightCode ports command after value pending :=
  ⟨hright.read.mono hextends, hright.code⟩

end Persistence

section Flows

variable {ports : AuthPorts} {history : AuthHistory}

theorem startEmailPasswordRegistration_flow
    (command : StartEmailPasswordRegistrationCommand) :
    (AuthUseCase.startEmailPasswordRegistration ports command).Ensures
      (FlowJustified ports (.startEmailPasswordRegistration command)) (fun _ _ => True) [] := by
  have hnormalize : (AuthUseCase.ofConsole
      (UseCase.normalizeEmail ports.toPorts command.email)).Ensures
        (FlowJustified ports (.startEmailPasswordRegistration command))
        (fun _ normalizedEmail => ports.normalizeEmail command.email = some normalizedEmail)
        [] :=
    @Execution.Ensures.embed console auth _ _ [] consoleInAuth _ (fun _ => False) _ _ _
      ((normalizeEmail_ensures ports.toPorts command.email).mono fun _ _ hpost => hpost.2)
      fun _ _ _ hallowed => hallowed.elim
  unfold AuthUseCase.startEmailPasswordRegistration
  refine hnormalize.bind ?_
  intro after normalizedEmail hemail
  split
  · exact Execution.ensures_raise
  · split
    · exact Execution.ensures_raise
    · refine Execution.ensures_select.bind ?_
      rintro after₁ account ⟨moment, world, rfl, _⟩
      split
      · exact Execution.ensures_pure trivial
      · refine (@authAsk_ensures _ _ (.console .issueToken) (FlowJustified.call rfl)).bind ?_
        intro after₂ rawToken htoken
        refine (@authAsk_ensures _ _ .drawCode (FlowJustified.call rfl)).bind ?_
        intro after₃ number hnumber
        refine authNewIdentifier_ensures.bind ?_
        intro after₄ registrationId hid
        refine (@authAsk_ensures _ _ (.console (.encryptEmail normalizedEmail))
          (FlowJustified.call rfl)).bind ?_
        intro after₅ emailCiphertext hciphertext
        refine (@authAsk_ensures _ _ (.hashPassword command.password)
          (FlowJustified.call rfl)).bind ?_
        intro after₆ passwordHash hpassword
        refine (authOrValueError_ensures _).bind ?_
        rintro after₇ pending ⟨rfl, hpending⟩
        have hfields := Validated.make_eq_ok.mp hpending
        have hstarted : Started ports command after₇ rawToken (verificationCode number)
            normalizedEmail pending := by
          refine ⟨hemail, ?_, ⟨number, ?_, rfl⟩, ?_, ?_, ?_, ?_, ?_, ?_⟩
          all_goals simp [hfields, hpassword, hciphertext, hid, hnumber, htoken]
        refine (sendCommand_ensures (fun _ => FlowJustified.call rfl) ?_).since.bind ?_
        · intro delivery
          exact FlowJustified.put (hstarted.mono (List.prefix_append _ _))
        · rintro after₈ answer ⟨hextends, _⟩
          refine (authOrRaise_ensures answer).bind ?_
          rintro after₉ stored ⟨rfl, _⟩
          split
          · exact Execution.ensures_pure trivial
          · exact deliverCode_ensures (fun _ => FlowJustified.call rfl)
              (fun _ => FlowJustified.call rfl)
              (fun _ => FlowJustified.sendStarted (hstarted.mono hextends))
              fun _ => FlowJustified.discardStarted

theorem resendEmailPasswordRegistration_flow
    (command : ResendEmailPasswordRegistrationCommand) :
    (AuthUseCase.resendEmailPasswordRegistration ports command).Ensures
      (FlowJustified ports (.resendEmailPasswordRegistration command)) (fun _ _ => True) [] := by
  unfold AuthUseCase.resendEmailPasswordRegistration
  refine (getPending_ensures (fun _ => FlowJustified.call rfl) _ _).bind ?_
  rintro after current ⟨moment, world, rfl, hcurrent⟩
  split
  · exact Execution.ensures_pure trivial
  · rename_i currentValue pending
    split
    · exact Execution.ensures_pure trivial
    · split
      · exact Execution.ensures_pure trivial
      · rename_i recipientEmail hrecipient
        refine (@authAsk_ensures _ _ .drawCode (FlowJustified.call rfl)).bind ?_
        rintro after₁ number rfl
        refine (authOrValueError_ensures _).bind ?_
        rintro after₂ rotated ⟨rfl, hrotated⟩
        have hread : ReadPending ports command.token ([] ++
            [@Observation.heard auth .connectRedis .answered] ++ [.saw moment world] ++
              [@Observation.heard auth .drawCode number]) currentValue pending :=
          ⟨moment, world.store, rfl, hcurrent.symm⟩
        have hrotates : Rotated ports command _ (verificationCode number) recipientEmail
            rotated :=
          ⟨⟨number, by simp, rfl⟩, currentValue, pending, hread, hrecipient, by
            rw [Validated.make_eq_ok.mp hrotated]⟩
        refine (sendCommand_ensures (fun _ => FlowJustified.call rfl) ?_).since.bind ?_
        · intro delivery
          exact FlowJustified.rotate (hrotates.mono (List.prefix_append _ _))
        · rintro after₃ answer ⟨hextends, _⟩
          refine (authOrRaise_ensures answer).bind ?_
          rintro after₄ replaced ⟨rfl, _⟩
          split
          · exact Execution.ensures_pure trivial
          · exact deliverCode_ensures (fun _ => FlowJustified.call rfl)
              (fun _ => FlowJustified.call rfl)
              (fun _ => FlowJustified.sendRotated (hrotates.mono hextends))
              fun _ => FlowJustified.discardRotated

/-- A registration asks for nothing but the rows of one e-mail account. -/
def AsksToRegisterAs (ports : AuthPorts) (pending : PendingEmailPasswordRegistration) :
    Action console → Prop
  | .call _ => True
  | .commit (.register user _ email credential _) => Registers ports pending user email credential
  | .commit _ => False

theorem completeEmailPasswordRegistration_flow {pending : PendingEmailPasswordRegistration}
    {decrypted : String} (hdecrypted : ports.decryptEmail pending.fields.emailCiphertext =
      some decrypted) (correlationId : UUID) (history : ConsoleHistory) :
    (UseCase.completeEmailPasswordRegistration ports.toPorts
      { normalizedEmail := decrypted
        displayName := pending.fields.displayName
        passwordHash := pending.fields.passwordHash
        correlationId }).Ensures
      (fun _ action => AsksToRegisterAs ports pending action) (fun _ _ => True) history := by
  unfold UseCase.completeEmailPasswordRegistration
  refine (normalizeEmail_ensures ports.toPorts _).bind ?_
  rintro after₁ normalized ⟨_, hnormalized⟩
  split
  · exact Execution.ensures_raise
  · refine newIdentifier_ensures.bind ?_
    intro after₂ userId _
    refine (orValueError_ensures _).bind ?_
    rintro after₃ user ⟨_, huser⟩
    refine newIdentifier_ensures.bind ?_
    intro after₄ identityId _
    refine (orValueError_ensures _).bind ?_
    intro after₅ identity _
    refine newIdentifier_ensures.bind ?_
    intro after₆ emailId _
    refine (@Execution.ensures_ask console Failure _ _ (.encryptEmail normalized)
      trivial).bind ?_
    intro after₇ ciphertext _
    refine (orValueError_ensures _).bind ?_
    rintro after₈ email ⟨_, hemail⟩
    refine (orValueError_ensures _).bind ?_
    rintro after₉ credential ⟨_, hcredential⟩
    refine (orValueError_ensures _).bind ?_
    rintro after₁₀ registration ⟨_, hregistration⟩
    refine newIdentifier_ensures.bind ?_
    intro after₁₁ auditId _
    refine (Execution.ensures_save ?_).bind ?_
    · rw [Validated.make_eq_ok.mp hregistration]
      refine ⟨⟨decrypted, normalized, hdecrypted, hnormalized, ?_⟩, ?_, ?_, ?_, ?_⟩
      · rw [Validated.make_eq_ok.mp hemail]
      · rw [Validated.make_eq_ok.mp huser]
      · rw [Validated.make_eq_ok.mp hcredential]
      · rw [Validated.make_eq_ok.mp hemail, Validated.make_eq_ok.mp huser]
      · rw [Validated.make_eq_ok.mp hcredential, Validated.make_eq_ok.mp huser]
    · intro after₁₂ created _
      split
      · exact Execution.ensures_raise
      · exact Execution.ensures_pure trivial

theorem completeVerified_flow (command : VerifyEmailPasswordRegistrationCommand)
    {value : String} {pending : PendingEmailPasswordRegistration} (correlationId : UUID)
    (hright : RightCode ports command history value pending) :
    (AuthUseCase.completeVerified ports pending correlationId).Ensures
      (FlowJustified ports (.verifyEmailPasswordRegistration command)) (fun _ _ => True)
      history := by
  unfold AuthUseCase.completeVerified
  split
  · exact Execution.ensures_raise
  · rename_i decrypted hdecrypted
    refine (ofConsole_ensures
      (completeEmailPasswordRegistration_flow hdecrypted correlationId []) ?_).attempt.bind ?_
    · intro after action hextends hallowed
      cases action with
      | call called => exact FlowJustified.call (by cases called <;> rfl)
      | commit write =>
          cases write with
          | register => exact FlowJustified.register (hright.mono hextends) hallowed
          | _ => exact hallowed.elim
    · intro after registered _
      cases registered with
      | ok userId => exact Execution.ensures_pure trivial
      | error failure =>
          dsimp only
          split
          · exact Execution.ensures_raise
          · exact Execution.ensures_raise

theorem verifyEmailPasswordRegistration_flow
    (command : VerifyEmailPasswordRegistrationCommand) :
    (AuthUseCase.verifyEmailPasswordRegistration ports command).Ensures
      (FlowJustified ports (.verifyEmailPasswordRegistration command)) (fun _ _ => True) [] := by
  unfold AuthUseCase.verifyEmailPasswordRegistration
  split
  · exact Execution.ensures_raise
  · refine (getPending_ensures (fun _ => FlowJustified.call rfl) _ _).bind ?_
    rintro after current ⟨moment, world, rfl, hcurrent⟩
    split
    · exact Execution.ensures_raise
    · rename_i currentValue pending
      have hread : ReadPending ports command.token ([] ++
          [@Observation.heard auth .connectRedis .answered] ++ [.saw moment world])
            currentValue pending :=
        ⟨moment, world.store, rfl, hcurrent.symm⟩
      split
      · exact Execution.ensures_raise
      · split
        · refine (authOrValueError_ensures _).bind ?_
          rintro after₁ counted ⟨rfl, hcounted⟩
          refine (sendCommand_ensures (fun _ => FlowJustified.call rfl) ?_).bind ?_
          · intro delivery
            exact FlowJustified.count ⟨currentValue, pending,
              hread.mono (List.prefix_append _ _), Validated.make_eq_ok.mp hcounted⟩
          · intro after₂ answer _
            refine (authOrRaise_ensures answer).bind ?_
            intro after₃ replaced _
            exact Execution.ensures_raise
        · rename_i hsame
          have hright : RightCode ports command _ currentValue pending :=
            ⟨hread, not_not.mp hsame⟩
          refine (sendCommand_ensures (fun _ => FlowJustified.call rfl) ?_).since.bind ?_
          · intro delivery
            exact FlowJustified.accept (hright.mono (List.prefix_append _ _))
          · rintro after₁ answer ⟨hextends, _⟩
            refine (authOrRaise_ensures answer).bind ?_
            rintro after₂ consumed ⟨rfl, _⟩
            split
            · exact Execution.ensures_raise
            · exact completeVerified_flow command command.correlationId
                (hright.mono hextends)

/-- Every request keeps to what registration flows may ask for. -/
theorem AuthRequest.program_flow (request : AuthRequest) :
    (request.program ports).Meets (FlowJustified ports request) (fun _ _ => True) [] := by
  have htrivial : ∀ {α : Type} {tag : α → AuthOutcome} {useCase : AuthUseCase α}
      {guard : AuthHistory → Action auth → Prop}, useCase.Ensures guard (fun _ _ => True) [] →
        (AuthUseCase.returning tag useCase).Meets guard (fun _ _ => True) [] := by
    intro α tag useCase guard hensures
    have hreturning : (AuthUseCase.returning tag useCase).Ensures guard (fun _ _ => True)
        [] := by
      unfold AuthUseCase.returning
      refine hensures.bind ?_
      intro after value _
      exact Execution.ensures_pure trivial
    exact hreturning.meets.mono (fun _ _ hguard => hguard) fun _ _ _ => trivial
  cases request with
  | startEmailPasswordRegistration command =>
      exact htrivial (startEmailPasswordRegistration_flow command)
  | resendEmailPasswordRegistration command =>
      exact htrivial (resendEmailPasswordRegistration_flow command)
  | verifyEmailPasswordRegistration command =>
      exact htrivial (verifyEmailPasswordRegistration_flow command)
  | elapse duration =>
      have helapse : (AuthUseCase.elapse duration).Ensures
          (FlowJustified ports (.elapse duration)) (fun _ _ => True) [] := by
        unfold AuthUseCase.elapse
        refine (@Execution.ensures_transact auth Failure _ _ (.elapse duration)
          FlowJustified.elapse).bind ?_
        intro after returned _
        exact Execution.ensures_pure trivial
      exact htrivial helapse
  | _ => exact Execution.meets_of_guard fun _ _ => FlowJustified.elsewhere id

end Flows

section Runs

variable {ports : AuthPorts} {store : AuthStore} {choices : List AuthChoice}

/-- A code goes out with an expiry after the reading just before. -/
theorem FlowJustified.announces {request : AuthRequest} {history : AuthHistory}
    {called : AuthCall} {announcement : Announcement}
    (hguard : FlowJustified ports request history (.call called))
    (hrequest : request.OfRegistration)
    (hcalled : AuthCall.announcement called = some announcement) :
    ∃ before, ∃ now : Instant,
      history = before ++ [@Observation.heard auth (.console .now) now] ∧
        announcement.expiresAt = now + verificationLifetime := by
  cases hguard with
  | call hother =>
      rw [hother] at hcalled
      cases hcalled
  | @sendStarted _ before _ _ _ _ now | @sendRotated _ before _ _ _ now =>
      cases hcalled
      exact ⟨before, now, rfl, rfl⟩
  | elsewhere hother => exact absurd hrequest hother

/-- What the executions of a run ask for in their next turn. -/
theorem flow_guard_commit {choice : AuthChoice} {commit : AuthCommit}
    (hcommit : (store.after ports choices).commit? choice = some commit) :
    FlowJustified ports commit.process.request commit.process.history
      (.commit commit.write) := by
  obtain ⟨hprocess, ⟨next, hnode⟩, _⟩ := System.commit?_eq_some hcommit
  have hmeets := running_meets hprocess (AuthRequest.program_flow commit.process.request)
  rw [hnode] at hmeets
  exact hmeets.1

theorem flow_guard_call {process : AuthProcess}
    (hprocess : process ∈ (store.after ports choices).processes) {called : AuthCall}
    {next : called.Answer → AuthUseCase AuthOutcome}
    (hnode : process.execution = .call called next) :
    FlowJustified ports process.request process.history (.call called) := by
  have hmeets := running_meets hprocess (AuthRequest.program_flow process.request)
  rw [hnode] at hmeets
  exact hmeets.1

end Runs

end MuxivoConsole
