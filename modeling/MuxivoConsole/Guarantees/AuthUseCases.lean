/-
Every use case around accounts asks only for what it may ask for, given what it
has read.
-/
import MuxivoConsole.Guarantees.AuthKnowledge
import MuxivoConsole.Guarantees.MemberUseCases

namespace MuxivoConsole

open Interleaving

section Steps

variable {guard : AuthHistory → Action auth → Prop} {history : AuthHistory}

theorem FirstRead.mono {before after : AuthHistory} {moment : Nat} {store : AuthStore}
    (hfirst : FirstRead before moment store) (hextends : before <+: after) :
    FirstRead after moment store := by
  obtain ⟨added, rfl⟩ := hextends
  unfold FirstRead at hfirst ⊢
  rw [reads_append, List.head?_append, hfirst]
  rfl

theorem LastRead.heard {moment : Nat} {store : AuthStore} (hlast : LastRead history moment store)
    (called : AuthCall) (answer : called.Answer) :
    LastRead (history ++ [@Observation.heard auth called answer]) moment store := by
  unfold LastRead at hlast ⊢
  rw [reads_append, reads_heard, List.append_nil, hlast]

theorem LastRead.drew {moment : Nat} {store : AuthStore} (hlast : LastRead history moment store)
    (name : UUID) : LastRead (history ++ [@Observation.drew auth name]) moment store := by
  unfold LastRead at hlast ⊢
  rw [reads_append, reads_drew, List.append_nil, hlast]

theorem FirstNow.mono {before after : AuthHistory} {now : Instant}
    (hfirst : FirstNow before now) (hextends : before <+: after) : FirstNow after now := by
  obtain ⟨added, rfl⟩ := hextends
  unfold FirstNow readings at hfirst ⊢
  rw [List.filterMap_append, List.head?_append, hfirst]
  rfl

theorem firstRead_saw (moment : Nat) (world : AuthWorld) :
    FirstRead [.saw moment world] moment world.store :=
  rfl

theorem Unwritten.nil : Unwritten [] := by
  intro write saved hmem
  cases hmem

theorem Unwritten.snoc (hunwritten : Unwritten history) {observation : Observation auth}
    (hnot : ∀ write saved, observation ≠ .wrote write saved) :
    Unwritten (history ++ [observation]) := by
  intro write saved hmem
  rcases List.mem_append.mp hmem with hmem | hmem
  · exact hunwritten write saved hmem
  · exact hnot write saved (List.mem_singleton.mp hmem).symm

theorem authAsk_ensures {called : AuthCall} (hguard : guard history (.call called)) :
    (@Execution.ask auth Failure called).Ensures guard
      (fun after answer => after = history ++ [.heard called answer]) history :=
  @Execution.ensures_ask auth Failure guard history called hguard

theorem authOrRaise_ensures {α : Type} (result : Except Failure α) :
    (AuthUseCase.orRaise result).Ensures guard
      (fun after value => after = history ∧ result = .ok value) history := by
  cases result with
  | ok value => exact Execution.ensures_pure ⟨rfl, rfl⟩
  | error failure => exact Execution.ensures_raise

theorem authOrValueError_ensures {α : Type} (result : Except String α) :
    (AuthUseCase.orValueError result).Ensures guard
      (fun after value => after = history ∧ result = .ok value) history := by
  cases result with
  | ok value => exact Execution.ensures_pure ⟨rfl, rfl⟩
  | error message => exact Execution.ensures_raise

theorem authNewIdentifier_ensures :
    AuthUseCase.newIdentifier.Ensures guard
      (fun after name => after = history ++ [.drew name]) history :=
  @Execution.ensures_newName auth Failure guard history

/-- A program of the Console whose requests are all of a kind. -/
theorem ofConsole_ensures {α : Type} {useCase : UseCase α} {allowed : Action console → Prop}
    (hensures : useCase.Ensures (fun _ action => allowed action) (fun _ _ => True) [])
    (hallowed : ∀ after action, history <+: after → allowed action →
      guard after (consoleInAuth.action action)) :
    (AuthUseCase.ofConsole useCase).Ensures guard (fun after _ => history <+: after)
      history := by
  have hembedded : (AuthUseCase.ofConsole useCase).Ensures guard (fun _ _ => True) history :=
    hensures.embed hallowed
  exact hembedded.since.mono fun _ _ hpost => hpost.1

end Steps

section Tokens

variable {guard : AuthHistory → Action auth → Prop} {history : AuthHistory}

theorem getToken_ensures (hconnect : ∀ after, guard after (.call AuthCall.connectRedis))
    (key : String) :
    (AuthUseCase.getToken key).Ensures guard
      (fun after answer => ∀ value, answer = .ok value → ∃ moment world,
        after = history ++ [@Observation.heard auth .connectRedis .answered] ++
          [.saw moment world] ∧ value = world.store.tokens.get key) history := by
  unfold AuthUseCase.getToken
  refine (authAsk_ensures (hconnect _)).bind ?_
  rintro after delivery rfl
  cases delivery with
  | answered =>
      refine Execution.ensures_select.bind ?_
      rintro after value ⟨moment, world, rfl, rfl⟩
      apply Execution.ensures_pure
      intro value hvalue
      cases hvalue
      exact ⟨moment, world, rfl, rfl⟩
  | lostOnTheWay | answerLost =>
      apply Execution.ensures_pure
      intro value hvalue
      cases hvalue

/-- A command is sent after one more call. -/
theorem sendCommand_ensures (hconnect : ∀ after, guard after (.call AuthCall.connectRedis))
    {command : AuthWrite} {answered : Option command.Receipt → Bool}
    (hguard : ∀ delivery, guard (history ++ [@Observation.heard auth .connectRedis delivery])
      (.commit command)) :
    (AuthUseCase.sendCommand command answered).Ensures guard (fun _ _ => True) history := by
  unfold AuthUseCase.sendCommand
  refine (authAsk_ensures (hconnect _)).bind ?_
  rintro after delivery rfl
  cases delivery with
  | answered =>
      refine (@Execution.ensures_transact auth Failure guard _ _ (hguard _)).bind ?_
      intro after response _
      exact Execution.ensures_pure trivial
  | lostOnTheWay => exact Execution.ensures_pure trivial
  | answerLost =>
      refine (@Execution.ensures_transact auth Failure guard _ _ (hguard _)).bind ?_
      intro after response _
      exact Execution.ensures_pure trivial

theorem getPending_ensures (hconnect : ∀ after, guard after (.call AuthCall.connectRedis))
    (ports : AuthPorts) (rawToken : String) :
    (AuthUseCase.getPending ports rawToken).Ensures guard
      (fun after current => ∃ moment world,
        after = history ++ [@Observation.heard auth .connectRedis .answered] ++
          [.saw moment world] ∧ current = world.store.pendingOf ports rawToken) history := by
  unfold AuthUseCase.getPending
  refine (getToken_ensures hconnect _).bind ?_
  intro after answer hanswer
  refine (authOrRaise_ensures answer).bind ?_
  rintro after currentValue ⟨rfl, hvalue⟩
  obtain ⟨moment, world, rfl, rfl⟩ := hanswer currentValue hvalue
  split
  · rename_i hnone
    refine Execution.ensures_pure ⟨moment, world, rfl, ?_⟩
    simp [AuthStore.pendingOf, hnone]
  · rename_i currentValue hsome
    split
    · rename_i hempty
      refine Execution.ensures_pure ⟨moment, world, rfl, ?_⟩
      simp [AuthStore.pendingOf, hsome, hempty]
    · rename_i hfull
      refine Execution.ensures_pure ⟨moment, world, rfl, ?_⟩
      simp [AuthStore.pendingOf, hsome, hfull]

/-- The value is delivered, or discarded by the one command that is asked for; the code
goes out with an expiry after the reading just before. -/
theorem deliverCode_ensures (hconnect : ∀ after, guard after (.call AuthCall.connectRedis))
    (hnow : ∀ after, guard after (.call (AuthCall.console .now)))
    {ports : AuthPorts} {pending : PendingEmailPasswordRegistration}
    {recipientEmail rawToken code : String} {correlationId : UUID}
    (hsend : ∀ now : Instant, guard (history ++ [@Observation.heard auth (.console .now) now])
      (.call (AuthCall.sendCode pending.fields.registrationId recipientEmail code
        (now + verificationLifetime) correlationId)))
    (hdiscard : ∀ after, guard after (.commit
      (AuthWrite.consume (registrationKey ports rawToken) (ports.toJson pending)))) :
    (AuthUseCase.deliverCode ports pending recipientEmail rawToken code
      correlationId).Ensures guard (fun _ _ => True) history := by
  have hsent : (AuthUseCase.sendCode pending.fields.registrationId recipientEmail code
      correlationId).Ensures guard (fun _ _ => True) history := by
    unfold AuthUseCase.sendCode
    refine (authAsk_ensures (hnow _)).bind ?_
    rintro after now rfl
    exact (@authAsk_ensures guard _ (.sendCode _ _ _ _ _) (hsend now)).mono
      fun _ _ _ => trivial
  have hdiscarded : ∀ after, (AuthUseCase.discardPending (registrationKey ports rawToken)
      (ports.toJson pending)).Ensures guard (fun _ _ => True) after := by
    intro after
    unfold AuthUseCase.discardPending
    refine (sendCommand_ensures hconnect fun _ => hdiscard _).bind ?_
    intro later answer _
    exact Execution.ensures_pure trivial
  unfold AuthUseCase.deliverCode
  refine hsent.bind ?_
  intro after sent _
  cases sent with
  | ok sent => exact Execution.ensures_pure trivial
  | error failure =>
      refine (hdiscarded after).bind ?_
      intro later discarded _
      split
      · exact Execution.ensures_raise
      · exact Execution.ensures_raise

end Tokens

section Registration

variable {ports : AuthPorts} {history : AuthHistory}

/-- A registration asks for nothing but the rows of one e-mail account. -/
def AsksToRegister : Action console → Prop
  | .call _ => True
  | .commit (.register user identity _ credential _) =>
      RegistersAccount user identity credential
  | .commit _ => False

theorem completeEmailPasswordRegistration_rows (ports : Ports)
    (command : CompleteEmailPasswordRegistrationCommand) (history : ConsoleHistory) :
    (UseCase.completeEmailPasswordRegistration ports command).Ensures
      (fun _ action => AsksToRegister action) (fun _ _ => True) history := by
  unfold UseCase.completeEmailPasswordRegistration
  refine (normalizeEmail_ensures ports _).bind ?_
  intro after₁ normalized _
  split
  · exact Execution.ensures_raise
  · refine newIdentifier_ensures.bind ?_
    intro after₂ userId _
    refine (orValueError_ensures _).bind ?_
    rintro after₃ user ⟨_, huser⟩
    refine newIdentifier_ensures.bind ?_
    intro after₄ identityId _
    refine (orValueError_ensures _).bind ?_
    rintro after₅ identity ⟨_, hidentity⟩
    refine newIdentifier_ensures.bind ?_
    intro after₆ emailId _
    refine (@Execution.ensures_ask console Failure _ _ (.encryptEmail normalized)
      trivial).bind ?_
    intro after₇ ciphertext _
    refine (orValueError_ensures _).bind ?_
    intro after₈ email _
    refine (orValueError_ensures _).bind ?_
    rintro after₉ credential ⟨_, hcredential⟩
    refine (orValueError_ensures _).bind ?_
    rintro after₁₀ registration ⟨_, hregistration⟩
    refine newIdentifier_ensures.bind ?_
    intro after₁₁ auditId _
    refine (Execution.ensures_save ?_).bind ?_
    · rw [Validated.make_eq_ok.mp hregistration]
      refine ⟨?_, ?_, ?_⟩
      · rw [Validated.make_eq_ok.mp huser, Validated.make_eq_ok.mp hidentity]
      · rw [Validated.make_eq_ok.mp hidentity]
      · rw [Validated.make_eq_ok.mp huser, Validated.make_eq_ok.mp hcredential]
    · intro after₁₂ created _
      split
      · exact Execution.ensures_raise
      · exact Execution.ensures_pure trivial

theorem completeVerified_ensures (command : VerifyEmailPasswordRegistrationCommand)
    (pending : PendingEmailPasswordRegistration) (correlationId : UUID) {moment : Nat}
    {store : AuthStore} (hread : FirstRead history moment store)
    (hright : store.wrongGuess ports command = none) :
    (AuthUseCase.completeVerified ports pending correlationId).Ensures
      (AuthJustified ports (.verifyEmailPasswordRegistration command)) (fun _ _ => True)
      history := by
  unfold AuthUseCase.completeVerified
  split
  · exact Execution.ensures_raise
  · refine (ofConsole_ensures (completeEmailPasswordRegistration_rows _ _ _)
      ?_).attempt.bind ?_
    · intro after action hextends hallowed
      cases action with
      | call called => exact AuthJustified.call
      | commit write =>
          cases write with
          | register =>
              exact AuthJustified.register (hread.mono hextends) hright hallowed
          | _ => exact hallowed.elim
    · intro after registered _
      cases registered with
      | ok userId => exact Execution.ensures_pure trivial
      | error failure =>
          dsimp only
          split
          · exact Execution.ensures_raise
          · exact Execution.ensures_raise

theorem verifyEmailPasswordRegistration_ensures
    (command : VerifyEmailPasswordRegistrationCommand) :
    (AuthUseCase.verifyEmailPasswordRegistration ports command).Ensures
      (AuthJustified ports (.verifyEmailPasswordRegistration command)) (fun _ _ => True) [] := by
  unfold AuthUseCase.verifyEmailPasswordRegistration
  split
  · exact Execution.ensures_raise
  · refine (getPending_ensures (fun _ => AuthJustified.call) _ _).bind ?_
    rintro after current ⟨moment, world, rfl, hcurrent⟩
    have hunwritten : Unwritten ([] ++ [@Observation.heard auth .connectRedis .answered] ++
        [.saw moment world]) :=
      (Unwritten.nil.snoc (by simp)).snoc (by simp)
    split
    · exact Execution.ensures_raise
    · rename_i currentValue pending
      split
      · exact Execution.ensures_raise
      · rename_i hattempts
        split
        · rename_i hwrong
          have hguess : world.store.wrongGuess ports command = some pending := by
            simp [AuthStore.wrongGuess, ← hcurrent, hattempts, hwrong]
          refine (authOrValueError_ensures _).bind ?_
          rintro after₁ counted ⟨rfl, hcounted⟩
          refine (sendCommand_ensures (fun _ => AuthJustified.call) ?_).bind ?_
          · intro delivery
            refine AuthJustified.count ⟨⟨moment, world.store, pending, ?_, hguess, ?_⟩, ?_⟩
            · rfl
            · rw [Validated.make_eq_ok.mp hcounted]
            · exact hunwritten.snoc (by simp)
          · intro after₂ answer _
            refine (authOrRaise_ensures answer).bind ?_
            intro after₃ replaced _
            exact Execution.ensures_raise
        · rename_i hright
          have hguess : world.store.wrongGuess ports command = none := by
            simp [AuthStore.wrongGuess, ← hcurrent, hattempts, hright]
          have hread : FirstRead ([] ++ [@Observation.heard auth .connectRedis .answered] ++
              [.saw moment world]) moment world.store := rfl
          refine (sendCommand_ensures (fun _ => AuthJustified.call) ?_).since.bind ?_
          · intro delivery
            exact AuthJustified.accept (hread.mono (List.prefix_append _ _)) hguess
          · rintro after₁ answer ⟨hextends, _⟩
            refine (authOrRaise_ensures answer).bind ?_
            rintro after₂ consumed ⟨rfl, _⟩
            split
            · exact Execution.ensures_raise
            · exact completeVerified_ensures command pending command.correlationId
                (hread.mono hextends) hguess

theorem resendEmailPasswordRegistration_ensures
    (command : ResendEmailPasswordRegistrationCommand) :
    (AuthUseCase.resendEmailPasswordRegistration ports command).Ensures
      (AuthJustified ports (.resendEmailPasswordRegistration command)) (fun _ _ => True) [] := by
  unfold AuthUseCase.resendEmailPasswordRegistration
  refine (getPending_ensures (fun _ => AuthJustified.call) _ _).bind ?_
  rintro after current ⟨moment, world, rfl, hcurrent⟩
  split
  · exact Execution.ensures_pure trivial
  · rename_i currentValue pending
    split
    · exact Execution.ensures_pure trivial
    · split
      · exact Execution.ensures_pure trivial
      · refine (@authAsk_ensures _ _ .drawCode AuthJustified.call).bind ?_
        rintro after₁ number rfl
        refine (authOrValueError_ensures _).bind ?_
        rintro after₂ rotated ⟨rfl, hrotated⟩
        refine (sendCommand_ensures (fun _ => AuthJustified.call) ?_).bind ?_
        · intro delivery
          refine AuthJustified.rotate ⟨moment, world.store, currentValue, pending, ?_,
            hcurrent.symm, ?_⟩
          · rfl
          · rw [Validated.make_eq_ok.mp hrotated]
        · intro after₃ answer _
          refine (authOrRaise_ensures answer).bind ?_
          intro after₄ replaced _
          split
          · exact Execution.ensures_pure trivial
          · exact deliverCode_ensures (fun _ => AuthJustified.call)
              (fun _ => AuthJustified.call) (fun _ => AuthJustified.call)
              fun _ => AuthJustified.discardRotated

theorem startEmailPasswordRegistration_ensures
    (command : StartEmailPasswordRegistrationCommand) :
    (AuthUseCase.startEmailPasswordRegistration ports command).Ensures
      (AuthJustified ports (.startEmailPasswordRegistration command)) (fun _ _ => True)
      history := by
  unfold AuthUseCase.startEmailPasswordRegistration
  refine (@ofConsole_ensures _ history _ _ (fun _ => False)
    ((normalizeEmail_ensures ports.toPorts command.email).mono fun _ _ _ => trivial)
    fun _ _ _ hallowed => hallowed.elim).bind ?_
  intro after normalizedEmail _
  split
  · exact Execution.ensures_raise
  · split
    · exact Execution.ensures_raise
    · refine Execution.ensures_select.bind ?_
      intro after₁ account _
      split
      · exact Execution.ensures_pure trivial
      · refine (@authAsk_ensures _ _ (.console .issueToken) AuthJustified.call).bind ?_
        intro after₂ rawToken _
        refine (@authAsk_ensures _ _ .drawCode AuthJustified.call).bind ?_
        intro after₃ number _
        refine authNewIdentifier_ensures.bind ?_
        intro after₄ registrationId _
        refine (@authAsk_ensures _ _ (.console (.encryptEmail _)) AuthJustified.call).bind ?_
        intro after₅ emailCiphertext _
        refine (@authAsk_ensures _ _ (.hashPassword _) AuthJustified.call).bind ?_
        intro after₆ passwordHash _
        refine (authOrValueError_ensures _).bind ?_
        intro after₇ pending _
        refine (sendCommand_ensures (fun _ => AuthJustified.call)
          fun _ => AuthJustified.startFlow).bind ?_
        intro after₈ answer _
        refine (authOrRaise_ensures answer).bind ?_
        intro after₉ stored _
        split
        · exact Execution.ensures_pure trivial
        · exact deliverCode_ensures (fun _ => AuthJustified.call)
              (fun _ => AuthJustified.call) (fun _ => AuthJustified.call)
            fun _ => AuthJustified.discardStarted

end Registration

section Sessions

variable {ports : AuthPorts} {history : AuthHistory}

theorem transact_ensures {guard : AuthHistory → Action auth → Prop} {write : AccountWrite}
    (hguard : guard history (.commit (.account write))) :
    (AuthUseCase.transact write).Ensures guard (fun _ _ => True) history :=
  (@Execution.ensures_transact auth Failure guard history (.account write) hguard).mono
    fun _ _ _ => trivial

theorem transactOrRaise_ensures {guard : AuthHistory → Action auth → Prop}
    {write : AccountWrite} (hguard : guard history (.commit (.account write))) :
    (AuthUseCase.transactOrRaise write).Ensures guard (fun _ _ => True) history := by
  unfold AuthUseCase.transactOrRaise
  refine (transact_ensures hguard).bind ?_
  intro after returned _
  cases returned with
  | some returned => exact Execution.ensures_pure trivial
  | none => exact Execution.ensures_raise

theorem authNow_ensures {guard : AuthHistory → Action auth → Prop}
    (hcall : ∀ after called, guard after (.call called)) :
    AuthUseCase.now.Ensures guard
      (fun after now => after = history ++ [@Observation.heard auth (.console .now) now])
      history :=
  authAsk_ensures (hcall _ _)

theorem requireRecent_ensures {guard : AuthHistory → Action auth → Prop}
    (hcall : ∀ after called, guard after (.call called))
    (principal : BrowserSessionPrincipal) :
    (AuthUseCase.requireRecentAuthentication principal).Ensures guard
      (fun after _ => history <+: after) history := by
  refine @ofConsole_ensures _ history _ _ (fun action => ∃ called, action = .call called) ?_ ?_
  · unfold UseCase.requireRecentAuthentication
    refine (@Execution.ensures_ask console Failure _ _ .now ⟨_, rfl⟩).bind ?_
    intro after now _
    split
    · split
      · exact Execution.ensures_raise
      · exact Execution.ensures_pure trivial
    · exact Execution.ensures_raise
  · rintro after action _ ⟨called, rfl⟩
    exact hcall _ _

theorem createSession_ensures {guard : AuthHistory → Action auth → Prop}
    {session : AuthSession} {createdAt : Instant} {auditEvent : AuditEvent}
    (hguard : ∀ row, row.id = session.fields.id → row.userId = session.fields.userId →
      guard history (.commit (.account (.createSession row auditEvent)))) :
    (AuthUseCase.createSession session createdAt auditEvent).Ensures guard (fun _ _ => True)
      history := by
  unfold AuthUseCase.createSession
  refine (transact_ensures ?_).bind ?_
  · exact hguard _ rfl rfl
  · intro after created _
    exact Execution.ensures_pure trivial

/-- The session is inserted under an identifier drawn for it, on the grounds that the
history gives before. -/
theorem createBrowserSession_ensures {guard : AuthHistory → Action auth → Prop}
    (hcall : ∀ after called, guard after (.call called))
    (command : CreateBrowserSessionCommand)
    (hguard : ∀ after session auditEvent, history <+: after → session.id ∈ held after →
      session.userId = command.userId →
        guard after (.commit (.account (.createSession session auditEvent)))) :
    (AuthUseCase.createBrowserSession ports command).Ensures guard (fun _ _ => True)
      history := by
  unfold AuthUseCase.createBrowserSession
  refine Execution.ensures_select.bind ?_
  rintro after₁ status ⟨moment, world, rfl, _⟩
  split
  · exact Execution.ensures_raise
  · refine (authNow_ensures hcall).bind ?_
    rintro after₂ now rfl
    refine (@authAsk_ensures _ _ (.console .issueToken) (hcall _ _)).bind ?_
    rintro after₃ rawToken rfl
    refine (@authAsk_ensures _ _ (.console .issueToken) (hcall _ _)).bind ?_
    rintro after₄ rawCsrfToken rfl
    refine authNewIdentifier_ensures.bind ?_
    rintro after₅ id rfl
    refine (authOrValueError_ensures _).bind ?_
    rintro after₆ session ⟨rfl, hsession⟩
    refine authNewIdentifier_ensures.bind ?_
    rintro after₇ auditId rfl
    have hfields := Validated.make_eq_ok.mp hsession
    refine (createSession_ensures ?_).bind ?_
    · intro row hid huser
      refine hguard _ _ _ ?_ ?_ ?_
      · simp only [List.append_assoc]
        exact List.prefix_append _ _
      · rw [hid, hfields]
        exact (@Quiet.drew auth _ auditId).held (@mem_held_drew auth _ id)
      · rw [huser, hfields]
    · intro after₈ created _
      split
      · exact Execution.ensures_raise
      · exact Execution.ensures_pure trivial

theorem authenticateEmailPassword_ensures (command : AuthenticateEmailPasswordCommand) :
    (AuthUseCase.authenticateEmailPassword ports command).Ensures
      (AuthJustified ports (.authenticateEmailPassword command)) (fun _ _ => True) [] := by
  have hrejects : ∀ after, (do
      let _ ← AuthUseCase.hashPassword command.password
      AuthUseCase.rejectAuthentication : AuthUseCase IssuedBrowserSession).Ensures
        (AuthJustified ports (.authenticateEmailPassword command)) (fun _ _ => True) after := by
    intro after
    refine (@authAsk_ensures _ _ (.hashPassword _) AuthJustified.call).bind ?_
    intro later hash _
    exact Execution.ensures_raise
  unfold AuthUseCase.authenticateEmailPassword
  split
  · exact hrejects []
  · rename_i normalizedEmail hnormalized
    refine Execution.ensures_select.bind ?_
    rintro after account ⟨moment, world, rfl, haccount⟩
    split
    · exact hrejects _
    · rename_i account
      split
      · exact Execution.ensures_raise
      · rename_i hproved
        simp only [Bool.or_eq_true, Bool.not_eq_true', not_or, Bool.not_eq_false] at hproved
        refine (createBrowserSession_ensures (fun _ _ => AuthJustified.call) _ ?_).attempt.bind ?_
        · intro later session auditEvent hextends hheld huser
          refine AuthJustified.createSession ⟨⟨moment, world.store, normalizedEmail, account,
            (firstRead_saw moment world).mono hextends, hnormalized, haccount.symm,
            hproved.1, huser.symm⟩, hheld⟩
        · intro later issued _
          cases issued with
          | ok issued => exact Execution.ensures_pure trivial
          | error failure =>
              dsimp only
              split
              · exact Execution.ensures_raise
              · exact Execution.ensures_raise

theorem touchLastSeen_ensures {guard : AuthHistory → Action auth → Prop}
    (session : AuthSession) (now : Instant)
    (hguard : guard history (.commit (.account
      (.touchLastSeen session.fields.id session.fields.userId now)))) :
    (AuthUseCase.touchLastSeen session now).Ensures guard (fun after _ => history <+: after)
      history := by
  have htouched : (AuthUseCase.touchLastSeen session now).Ensures guard (fun _ _ => True)
      history := by
    unfold AuthUseCase.touchLastSeen
    split
    · exact Execution.ensures_pure trivial
    · refine (transact_ensures hguard).bind ?_
      intro after touched _
      exact Execution.ensures_pure trivial
  exact htouched.since.mono fun _ _ hpost => hpost.1

theorem resolveBrowserSession_ensures (rawToken : String) :
    (AuthUseCase.resolveBrowserSession ports rawToken).Ensures
      (AuthJustified ports (.resolveBrowserSession rawToken))
      (fun after result => ∀ principal, result = some principal →
        Resolved ports rawToken after principal) [] := by
  have hnobody : ∀ after, (pure none : AuthUseCase (Option BrowserSessionPrincipal)).Ensures
      (AuthJustified ports (.resolveBrowserSession rawToken))
      (fun after result => ∀ principal, result = some principal →
        Resolved ports rawToken after principal) after := by
    intro after
    apply Execution.ensures_pure
    intro principal hprincipal
    cases hprincipal
  unfold AuthUseCase.resolveBrowserSession
  split
  · exact hnobody []
  · refine Execution.ensures_select.bind ?_
    rintro after₁ session ⟨moment, world, rfl, hsession⟩
    refine (authNow_ensures (fun _ _ => AuthJustified.call)).bind ?_
    rintro after₂ now rfl
    split
    · exact hnobody _
    · rename_i session
      split
      · exact hnobody _
      · rename_i hactive
        refine Execution.ensures_select.bind ?_
        rintro after₃ status ⟨moment', world', rfl, _⟩
        split
        · exact hnobody _
        · refine (touchLastSeen_ensures session now (AuthJustified.touch ?_)).bind ?_
          · rfl
          · intro after₄ touched hextends
            apply Execution.ensures_pure
            intro principal hprincipal
            cases hprincipal
            refine ⟨moment, world.store, session, now, FirstRead.mono ?_ hextends,
              FirstNow.mono ?_ hextends, hsession.symm, ?_, rfl, rfl⟩
            · rfl
            · rfl
            · simpa using hactive

theorem listBrowserSessions_ensures (command : ListBrowserSessionsCommand) :
    (AuthUseCase.listBrowserSessions command).Ensures
      (AuthJustified ports (.listBrowserSessions command)) (Listed command) [] := by
  unfold AuthUseCase.listBrowserSessions
  refine Execution.ensures_select.bind ?_
  rintro after₁ status ⟨moment, world, rfl, _⟩
  split
  · exact Execution.ensures_raise
  · refine (authNow_ensures (fun _ _ => AuthJustified.call)).bind ?_
    rintro after₂ activeAt rfl
    refine Execution.ensures_select.bind ?_
    rintro after₃ sessions ⟨moment', world', rfl, rfl⟩
    apply Execution.ensures_pure
    refine ⟨moment', world'.store, activeAt, rfl, rfl, ?_⟩
    rw [List.map_map]
    exact List.map_id _

theorem reauthenticateBrowserSession_ensures
    (command : ReauthenticateBrowserSessionCommand) :
    (AuthUseCase.reauthenticateBrowserSession ports command).Ensures
      (AuthJustified ports (.reauthenticateBrowserSession command)) (fun _ _ => True) [] := by
  unfold AuthUseCase.reauthenticateBrowserSession
  refine Execution.ensures_select.bind ?_
  rintro after₁ status ⟨moment, world, rfl, _⟩
  split
  · exact Execution.ensures_raise
  · refine Execution.ensures_select.bind ?_
    rintro after₂ credential ⟨moment', world', rfl, _⟩
    split
    · refine (@authAsk_ensures _ _ (.hashPassword _) AuthJustified.call).bind ?_
      intro after₃ hash _
      exact Execution.ensures_raise
    · split
      · exact Execution.ensures_raise
      · refine (authNow_ensures (fun _ _ => AuthJustified.call)).bind ?_
        rintro after₃ authenticatedAt rfl
        refine authNewIdentifier_ensures.bind ?_
        rintro after₄ auditId rfl
        refine (transactOrRaise_ensures (AuthJustified.reauthenticate ?_)).bind ?_
        · rfl
        · intro after₅ reauthenticated _
          split
          · exact Execution.ensures_pure trivial
          · exact Execution.ensures_raise

theorem revokeBrowserSession_ensures (command : RevokeBrowserSessionCommand) :
    (AuthUseCase.revokeBrowserSession command).Ensures
      (AuthJustified ports (.revokeBrowserSession command)) (fun _ _ => True) history := by
  unfold AuthUseCase.revokeBrowserSession
  refine (authNow_ensures (fun _ _ => AuthJustified.call)).bind ?_
  intro after₁ revokedAt _
  refine authNewIdentifier_ensures.bind ?_
  intro after₂ auditId _
  refine (transactOrRaise_ensures AuthJustified.revoke).bind ?_
  intro after₃ revoked _
  split
  · exact Execution.ensures_pure trivial
  · exact Execution.ensures_raise

theorem revokeAllBrowserSessions_ensures (command : RevokeAllBrowserSessionsCommand) :
    (AuthUseCase.revokeAllBrowserSessions command).Ensures
      (AuthJustified ports (.revokeAllBrowserSessions command)) (fun _ _ => True)
      history := by
  unfold AuthUseCase.revokeAllBrowserSessions
  refine (requireRecent_ensures (fun _ _ => AuthJustified.call) _).bind ?_
  intro after₁ checked _
  refine (authNow_ensures (fun _ _ => AuthJustified.call)).bind ?_
  intro after₂ revokedAt _
  refine authNewIdentifier_ensures.bind ?_
  intro after₃ auditId _
  refine (transactOrRaise_ensures AuthJustified.revokeAll).bind ?_
  intro after₄ revokedCount _
  split
  · exact Execution.ensures_raise
  · exact Execution.ensures_pure trivial

theorem cleanupSecurityRecords_ensures (command : CleanupSecurityRecordsCommand) :
    (AuthUseCase.cleanupSecurityRecords command).Ensures
      (AuthJustified ports (.cleanupSecurityRecords command)) (fun _ _ => True) history := by
  unfold AuthUseCase.cleanupSecurityRecords
  refine (authNow_ensures (fun _ _ => AuthJustified.call)).bind ?_
  intro after₁ now _
  split
  · exact Execution.ensures_raise
  · refine (transactOrRaise_ensures AuthJustified.deleteSessions).bind ?_
    intro after₂ deletedSessions _
    refine (transactOrRaise_ensures AuthJustified.deleteRecoveries).bind ?_
    intro after₃ deletedRecoveries _
    exact Execution.ensures_pure trivial

end Sessions

section Credentials

variable {ports : AuthPorts} {history : AuthHistory}

theorem requestPasswordRecovery_ensures (command : RequestPasswordRecoveryCommand) :
    (AuthUseCase.requestPasswordRecovery ports command).Ensures
      (AuthJustified ports (.requestPasswordRecovery command)) (fun _ _ => True) history := by
  have hdiscards : ∀ tokenHash value after,
      (AuthUseCase.discardToken (recoveryKey tokenHash) value).Ensures
        (AuthJustified ports (.requestPasswordRecovery command)) (fun _ _ => True) after := by
    intro tokenHash value after
    unfold AuthUseCase.discardToken
    refine (sendCommand_ensures (fun _ => AuthJustified.call)
      fun _ => AuthJustified.discardReference).bind ?_
    intro later answer _
    exact Execution.ensures_pure trivial
  unfold AuthUseCase.requestPasswordRecovery
  refine (@authAsk_ensures _ _ (.console .issueToken) AuthJustified.call).bind ?_
  intro after₁ rawToken _
  split
  · exact Execution.ensures_pure trivial
  · refine Execution.ensures_select.bind ?_
    intro after₂ account _
    split
    · exact Execution.ensures_pure trivial
    · split
      · exact Execution.ensures_pure trivial
      · refine (authNow_ensures (fun _ _ => AuthJustified.call)).bind ?_
        intro after₃ now _
        refine authNewIdentifier_ensures.bind ?_
        intro after₄ id _
        refine (authOrValueError_ensures _).bind ?_
        intro after₅ transaction _
        refine (sendCommand_ensures (fun _ => AuthJustified.call)
          fun _ => AuthJustified.putReference).bind ?_
        intro after₆ answer _
        refine (authOrRaise_ensures answer).bind ?_
        intro after₇ stored _
        split
        · exact Execution.ensures_pure trivial
        · refine authNewIdentifier_ensures.bind ?_
          intro after₈ auditId _
          refine (transact_ensures AuthJustified.createRecovery).bind ?_
          intro after₉ created _
          split
          · exact hdiscards _ _ _
          · refine (@authAsk_ensures _ _ (.sendRecovery _ _ _ _ _) AuthJustified.call).bind ?_
            intro after₁₀ sent _
            cases sent with
            | ok sent => exact Execution.ensures_pure trivial
            | error failure => exact hdiscards _ _ _

theorem notifyRecovered_ensures {guard : AuthHistory → Action auth → Prop}
    (hcall : ∀ after called, guard after (.call called)) (userId : UUID)
    (changedAt : Instant) (correlationId : UUID) :
    (AuthUseCase.notifyRecovered ports userId changedAt correlationId).Ensures guard
      (fun _ _ => True) history := by
  unfold AuthUseCase.notifyRecovered
  refine Execution.ensures_select.bind ?_
  intro after ciphertext _
  split
  · exact Execution.ensures_pure trivial
  · split
    · exact Execution.ensures_pure trivial
    · refine (@authAsk_ensures _ _ (.sendRecovered _ _ _ _) (hcall _ _)).bind ?_
      intro later sent _
      exact Execution.ensures_pure trivial

theorem completePasswordRecovery_ensures (command : CompletePasswordRecoveryCommand) :
    (AuthUseCase.completePasswordRecovery ports command).Ensures
      (AuthJustified ports (.completePasswordRecovery command)) (fun _ _ => True)
      history := by
  unfold AuthUseCase.completePasswordRecovery
  split
  · exact Execution.ensures_raise
  · split
    · exact Execution.ensures_raise
    · refine (getToken_ensures (fun _ => AuthJustified.call) _).bind ?_
      intro after₁ answer _
      refine (authOrRaise_ensures answer).bind ?_
      intro after₂ storedReference _
      split
      · exact Execution.ensures_raise
      · split
        · exact Execution.ensures_raise
        · refine (authNow_ensures (fun _ _ => AuthJustified.call)).bind ?_
          intro after₃ completedAt _
          refine (@authAsk_ensures _ _ (.hashPassword _) AuthJustified.call).bind ?_
          intro after₄ passwordHash _
          refine authNewIdentifier_ensures.bind ?_
          intro after₅ auditId _
          refine (transact_ensures AuthJustified.completeRecovery).bind ?_
          intro after₆ completed _
          split
          · exact Execution.ensures_raise
          · refine (sendCommand_ensures (fun _ => AuthJustified.call)
              fun _ => AuthJustified.consumeReference).bind ?_
            intro after₇ consumed _
            exact notifyRecovered_ensures (fun _ _ => AuthJustified.call) _ _ _

theorem changeEmailPassword_ensures (command : ChangeEmailPasswordCommand) :
    (AuthUseCase.changeEmailPassword ports command).Ensures
      (AuthJustified ports (.changeEmailPassword command)) (fun _ _ => True) history := by
  unfold AuthUseCase.changeEmailPassword
  refine (requireRecent_ensures (fun _ _ => AuthJustified.call) _).bind ?_
  intro after₁ checked _
  refine Execution.ensures_select.bind ?_
  intro after₂ status _
  split
  · exact Execution.ensures_raise
  · split
    · exact Execution.ensures_raise
    · refine Execution.ensures_select.bind ?_
      rintro after₃ credential ⟨moment, world, rfl, hcredential⟩
      split
      · refine (@authAsk_ensures _ _ (.hashPassword _) AuthJustified.call).bind ?_
        intro after₄ hash _
        exact Execution.ensures_raise
      · rename_i credential
        split
        · exact Execution.ensures_raise
        · rename_i hverified
          split
          · exact Execution.ensures_raise
          · refine (@authAsk_ensures _ _ (.hashPassword _) AuthJustified.call).bind ?_
            rintro after₄ passwordHash rfl
            refine (authNow_ensures (fun _ _ => AuthJustified.call)).bind ?_
            rintro after₅ changedAt rfl
            refine authNewIdentifier_ensures.bind ?_
            rintro after₆ auditId rfl
            refine (transact_ensures (AuthJustified.changePassword
              ⟨⟨moment, world.store, credential, ?_, hcredential.symm, ?_⟩⟩)).bind ?_
            · have hlast : LastRead (after₂ ++ [.saw moment world]) moment world.store := by
                simp [LastRead]
              exact ((hlast.heard _ _).heard _ _).drew auditId
            · simpa using hverified
            · intro after₇ changed _
              split
              · exact Execution.ensures_pure trivial
              · exact Execution.ensures_raise

theorem linkVerifiedIdentity_ensures (command : LinkVerifiedIdentityCommand) :
    (AuthUseCase.linkVerifiedIdentity command).Ensures
      (AuthJustified ports (.linkVerifiedIdentity command)) (fun _ _ => True) history := by
  unfold AuthUseCase.linkVerifiedIdentity
  split
  · exact Execution.ensures_raise
  · rename_i hprovider
    refine Execution.ensures_select.bind ?_
    intro after₁ status _
    split
    · exact Execution.ensures_raise
    · refine authNewIdentifier_ensures.bind ?_
      intro after₂ id _
      split
      · exact Execution.ensures_raise
      · rename_i identity hidentity
        refine authNewIdentifier_ensures.bind ?_
        intro after₃ auditId _
        refine (transact_ensures (AuthJustified.link ?_)).bind ?_
        · rw [Validated.make_eq_ok.mp hidentity]
          exact fun hemail => hprovider (StrEnum.value_injective hemail)
        · intro after₄ linked _
          split
          · exact Execution.ensures_pure trivial
          · exact Execution.ensures_raise

theorem unlinkLoginIdentity_ensures (command : UnlinkLoginIdentityCommand) :
    (AuthUseCase.unlinkLoginIdentity command).Ensures
      (AuthJustified ports (.unlinkLoginIdentity command)) (fun _ _ => True) history := by
  unfold AuthUseCase.unlinkLoginIdentity
  refine (requireRecent_ensures (fun _ _ => AuthJustified.call) _).bind ?_
  intro after₁ checked _
  refine Execution.ensures_select.bind ?_
  intro after₂ status _
  split
  · exact Execution.ensures_raise
  · refine Execution.ensures_select.bind ?_
    intro after₃ identities _
    split
    · exact Execution.ensures_raise
    · split
      · exact Execution.ensures_raise
      · split
        · exact Execution.ensures_raise
        · refine authNewIdentifier_ensures.bind ?_
          intro after₄ auditId _
          refine (transact_ensures AuthJustified.unlink).bind ?_
          intro after₅ unlinked _
          split
          · exact Execution.ensures_pure trivial
          · exact Execution.ensures_raise

end Credentials

section Program

variable {ports : AuthPorts}

theorem authReturning_ensures {α : Type} {guard : AuthHistory → Action auth → Prop}
    {useCase : AuthUseCase α} {tag : α → AuthOutcome} {history : AuthHistory}
    {middle : AuthHistory → α → Prop} {post : AuthHistory → AuthOutcome → Prop}
    (huseCase : useCase.Ensures guard middle history)
    (hpost : ∀ after value, middle after value → post after (tag value)) :
    (AuthUseCase.returning tag useCase).Ensures guard post history := by
  unfold AuthUseCase.returning
  refine huseCase.bind ?_
  intro after value hmiddle
  exact Execution.ensures_pure (hpost after value hmiddle)

/-- Every use case around accounts keeps to what it may ask for. -/
theorem AuthRequest.program_ensures (request : AuthRequest) :
    (request.program ports).Ensures (AuthJustified ports request) (AuthAnswered ports request)
      [] := by
  cases request with
  | startEmailPasswordRegistration command =>
      exact authReturning_ensures (startEmailPasswordRegistration_ensures command)
        fun _ _ _ => trivial
  | resendEmailPasswordRegistration command =>
      exact authReturning_ensures (resendEmailPasswordRegistration_ensures command)
        fun _ _ _ => trivial
  | verifyEmailPasswordRegistration command =>
      exact authReturning_ensures (verifyEmailPasswordRegistration_ensures command)
        fun _ _ _ => trivial
  | authenticateEmailPassword command =>
      exact authReturning_ensures (authenticateEmailPassword_ensures command)
        fun _ _ _ => trivial
  | resolveBrowserSession rawToken =>
      refine authReturning_ensures (resolveBrowserSession_ensures rawToken) ?_
      intro after result hresolved
      cases result with
      | none => trivial
      | some principal => exact hresolved principal rfl
  | listBrowserSessions command =>
      exact authReturning_ensures (listBrowserSessions_ensures command) fun _ _ hlisted => hlisted
  | reauthenticateBrowserSession command =>
      exact authReturning_ensures (reauthenticateBrowserSession_ensures command)
        fun _ _ _ => trivial
  | revokeBrowserSession command =>
      exact authReturning_ensures (revokeBrowserSession_ensures command) fun _ _ _ => trivial
  | revokeAllBrowserSessions command =>
      exact authReturning_ensures (revokeAllBrowserSessions_ensures command) fun _ _ _ => trivial
  | cleanupSecurityRecords command =>
      exact authReturning_ensures (cleanupSecurityRecords_ensures command) fun _ _ _ => trivial
  | requestPasswordRecovery command =>
      exact authReturning_ensures (requestPasswordRecovery_ensures command) fun _ _ _ => trivial
  | completePasswordRecovery command =>
      exact authReturning_ensures (completePasswordRecovery_ensures command) fun _ _ _ => trivial
  | changeEmailPassword command =>
      exact authReturning_ensures (changeEmailPassword_ensures command) fun _ _ _ => trivial
  | linkVerifiedIdentity command =>
      exact authReturning_ensures (linkVerifiedIdentity_ensures command) fun _ _ _ => trivial
  | unlinkLoginIdentity command =>
      exact authReturning_ensures (unlinkLoginIdentity_ensures command) fun _ _ _ => trivial
  | elapse duration =>
      refine @authReturning_ensures _ _ _ _ _ (fun _ _ => True) _ ?_ fun _ _ _ => trivial
      unfold AuthUseCase.elapse
      refine (@Execution.ensures_transact auth Failure _ _ (.elapse duration)
        AuthJustified.elapse).bind ?_
      intro after receipt _
      exact Execution.ensures_pure trivial

end Program

end MuxivoConsole
