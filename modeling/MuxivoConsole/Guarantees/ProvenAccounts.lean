/-
Where accounts come from.  A pending value is that of a started flow but for its code and
its attempts, and the codes are those that the start and the resends drew for it; so an
account goes back to a flow, its token and such a code.
-/
import MuxivoConsole.Guarantees.CodeExpiry

namespace MuxivoConsole

open Interleaving Relational

/-- A registration flow: what its start was told, drew and heard. -/
structure RegistrationFlow where
  command : StartEmailPasswordRegistrationCommand
  rawToken : String
  firstCode : String
  normalizedEmail : String
  pending : PendingEmailPasswordRegistration

section Provenance

variable (ports : AuthPorts) (system : AuthSystem)

namespace RegistrationFlow

/-- An execution of the system started the flow. -/
def Begun (flow : RegistrationFlow) : Prop :=
  ∃ starter ∈ system.processes,
    starter.request = .startEmailPasswordRegistration flow.command ∧
      Started ports flow.command starter.history flow.rawToken flow.firstCode
        flow.normalizedEmail flow.pending

/-- The start drew the code for the flow, or a resend with the token of the flow did. -/
def Drew (flow : RegistrationFlow) (code : String) : Prop :=
  code = flow.firstCode ∨
    ∃ resender ∈ system.processes, ∃ command recipientEmail rotated,
      resender.request = .resendEmailPasswordRegistration command ∧
        command.token = flow.rawToken ∧
          Rotated ports command resender.history code recipientEmail rotated ∧
            rotated.fields.registrationId = flow.pending.fields.registrationId

/-- The pending value is the one of the flow with this code. -/
structure Waits (flow : RegistrationFlow) (code : String)
    (pending : PendingEmailPasswordRegistration) : Prop where
  begun : flow.Begun ports system
  drew : flow.Drew ports system code
  fields : pending.fields = { flow.pending.fields with
    verificationCodeHash := registrationCodeHash ports flow.rawToken code
    attempts := pending.fields.attempts }

end RegistrationFlow

/-- Who sets the value under the key of a token, and from what. -/
inductive SetsPending (rawToken : String) : AuthRequest → AuthHistory →
    PendingEmailPasswordRegistration → Prop
  | start {command history token code normalizedEmail pending}
      (hkey : registrationKey ports token = registrationKey ports rawToken)
      (hstarted : Started ports command history token code normalizedEmail pending) :
      SetsPending rawToken (.startEmailPasswordRegistration command) history pending
  | resend {command history code recipientEmail rotated}
      (hkey : registrationKey ports command.token = registrationKey ports rawToken)
      (hrotated : Rotated ports command history code recipientEmail rotated) :
      SetsPending rawToken (.resendEmailPasswordRegistration command) history rotated
  | verify {command history counted}
      (hkey : registrationKey ports command.token = registrationKey ports rawToken)
      (hcounted : Counted ports command history counted) :
      SetsPending rawToken (.verifyEmailPasswordRegistration command) history counted

/-- Who asks the notifier to send, for what flow and what code. -/
inductive Announces : AuthRequest → AuthHistory → Announcement → Prop
  | start {command history rawToken code normalizedEmail pending expiresAt}
      (hstarted : Started ports command history rawToken code normalizedEmail pending) :
      Announces (.startEmailPasswordRegistration command) history
        ⟨pending.fields.registrationId, normalizedEmail, code, expiresAt⟩
  | resend {command history code recipientEmail rotated expiresAt}
      (hrotated : Rotated ports command history code recipientEmail rotated) :
      Announces (.resendEmailPasswordRegistration command) history
        ⟨rotated.fields.registrationId, recipientEmail, code, expiresAt⟩

/-- A ciphertext that the protector gave decrypts to what was encrypted. -/
def Decrypts : (called : auth.Call) → auth.Answer called → Prop
  | .console (.encryptEmail email), ciphertext => ports.decryptEmail ciphertext = some email
  | _, _ => True

instance : (called : auth.Call) → (answer : auth.Answer called) →
    Decidable (Decrypts ports called answer)
  | .console (.encryptEmail email), ciphertext =>
      inferInstanceAs (Decidable (ports.decryptEmail ciphertext = some email))
  | .console .now, _ | .console .issueToken, _ | .console (.generateSlug _), _
  | .console (.verifyConnection ..), _ | .console (.inspectConnection ..), _
  | .console (.sendInvitation ..), _ | .console (.updatePlatform ..), _
  | .connectRedis, _ | .hashPassword _, _ | .drawCode, _ | .sendCode .., _
  | .sendRecovery .., _ | .sendRecovered .., _ => isTrue trivial

/-- The rows of an account, and the execution that inserted them. -/
structure CreatedAccount where
  creator : AuthProcess
  user : UserRecord
  email : UserEmailRecord
  credential : PasswordCredentialRecord

/-- The account that a transaction creates. -/
def AuthCommit.account? (commit : AuthCommit) : Option CreatedAccount :=
  match commit.write with
  | .console (.register user _ email credential _) =>
      some ⟨commit.process, user, email, credential⟩
  | _ => none

/-- The accounts that a run has created, oldest first. -/
def createdAccounts (store : AuthStore) (choices : List AuthChoice) : List CreatedAccount :=
  (store.idle.commits (AuthRequest.program ports) choices).filterMap AuthCommit.account?

/-- The account goes back to the flow: its creator is a verification with the token of the
flow and a code that was drawn for it, and its rows say what the flow says. -/
structure CreatedAccount.GoesBack (account : CreatedAccount) (flow : RegistrationFlow) :
    Prop where
  begun : flow.Begun ports system
  proof : ∃ command, account.creator.request = .verifyEmailPasswordRegistration command ∧
    command.token = flow.rawToken ∧ flow.Drew ports system command.code
  displayName : account.user.displayName = flow.command.displayName
  passwordHash : account.credential.passwordHash = flow.pending.fields.passwordHash
  emailLookupHash : account.email.emailLookupHash = ports.lookupHash flow.normalizedEmail
  emailUser : account.email.userId = account.user.id
  credentialUser : account.credential.userId = account.user.id

end Provenance

section Values

variable {ports : AuthPorts} {rawToken : String}

theorem registrationKey_inj (hhash : Function.Injective ports.hashToken)
    {first second : String}
    (hkey : registrationKey ports first = registrationKey ports second) : first = second := by
  unfold registrationKey at hkey
  exact hhash (String.append_right_inj _ |>.mp hkey)

theorem registrationCodeHash_inj (hhash : Function.Injective ports.hashToken)
    {first second : String}
    (hcode : registrationCodeHash ports rawToken first =
      registrationCodeHash ports rawToken second) : first = second := by
  unfold registrationCodeHash at hcode
  exact String.append_right_inj _ |>.mp (hhash hcode)

/-- Where the pending value after a commit comes from: it was there before, or the
execution set it. -/
theorem FlowJustified.pendingOf (hround : RoundTrips ports) {request : AuthRequest}
    {history : AuthHistory} {write : AuthWrite} {found after : AuthStore}
    (hguard : FlowJustified ports request history (.commit write))
    (hrequest : request.OfRegistration) (happly : write.apply found = some after)
    {value : String} {pending : PendingEmailPasswordRegistration}
    (hpending : after.pendingOf ports rawToken = some (value, pending)) :
    found.pendingOf ports rawToken = some (value, pending) ∨
      SetsPending ports rawToken request history pending := by
  obtain ⟨hget, hfilled, hdecoded⟩ := AuthStore.pendingOf_eq_some.mp hpending
  have hkept : write.putKey ≠ some (registrationKey ports rawToken) →
      write.replacedKey ≠ some (registrationKey ports rawToken) →
        found.pendingOf ports rawToken = some (value, pending) := by
    intro hput hreplace
    have hfound := AuthWrite.tokens_get happly hput hreplace hget
    exact AuthStore.pendingOf_eq_some.mpr ⟨hfound, hfilled, hdecoded⟩
  have hreplaced : ∀ token set, after = { found with
      tokens := (RedisOneTimeTokenStore.replace found.tokens (registrationKey ports token)
        (ports.toJson set) verificationLifetimeSeconds).1 } →
      registrationKey ports token = registrationKey ports rawToken → set = pending := by
    intro token set hafter hkey
    subst hafter
    rw [hkey, RedisOneTimeTokenStore.get_replace] at hget
    cases hget
    rw [hround] at hdecoded
    exact Option.some.inj hdecoded
  cases hguard with
  | @put command history token code normalizedEmail set hstarted =>
      by_cases hkey : registrationKey ports token = registrationKey ports rawToken
      · by_cases htaken : (found.tokens.get (registrationKey ports token)).isSome = true
        · left
          cases happly
          simp only [RedisOneTimeTokenStore.put, RedisServer.setExNx, htaken,
            ↓reduceIte] at hget
          exact AuthStore.pendingOf_eq_some.mpr ⟨hget, hfilled, hdecoded⟩
        · right
          have hset : set = pending := by
            refine hreplaced token set ?_ hkey
            cases happly
            simp only [RedisOneTimeTokenStore.put, RedisServer.setExNx, htaken,
              RedisOneTimeTokenStore.replace, Bool.false_eq_true, ↓reduceIte]
          rw [← hset]
          exact SetsPending.start hkey hstarted
      · exact Or.inl (hkept (fun hput => hkey (Option.some.inj hput))
          (by simp [AuthWrite.replacedKey]))
  | @rotate command history code recipientEmail rotated hrotated =>
      by_cases hkey : registrationKey ports command.token = registrationKey ports rawToken
      · rw [← hreplaced command.token rotated (Option.some.inj happly).symm hkey]
        exact Or.inr (SetsPending.resend hkey hrotated)
      · exact Or.inl (hkept (by simp [AuthWrite.putKey]) fun hset => hkey (Option.some.inj hset))
  | @count command history counted hcounted =>
      by_cases hkey : registrationKey ports command.token = registrationKey ports rawToken
      · rw [← hreplaced command.token counted (Option.some.inj happly).symm hkey]
        exact Or.inr (SetsPending.verify hkey hcounted)
      · exact Or.inl (hkept (by simp [AuthWrite.putKey]) fun hset => hkey (Option.some.inj hset))
  | discardStarted | discardRotated | accept | register | elapse =>
      exact Or.inl (hkept (by simp [AuthWrite.putKey]) (by simp [AuthWrite.replacedKey]))
  | elsewhere hother => exact absurd hrequest hother

end Values

section Runs

variable {ports : AuthPorts} {store : AuthStore} {flow : RegistrationFlow}

theorem mem_processes_later {before : List AuthChoice} {process : AuthProcess}
    (hprocess : process ∈ (store.after ports before).processes) (rest : List AuthChoice) :
    ∃ later ∈ (store.after ports (before ++ rest)).processes,
      later.request = process.request ∧ process.history <+: later.history := by
  have happend : store.after ports (before ++ rest) =
      (store.after ports before).run (AuthRequest.program ports) rest :=
    System.run_append store.idle before rest
  rw [happend]
  exact System.mem_processes_grows hprocess rest

theorem RegistrationFlow.Begun.later {before : List AuthChoice}
    (hbegun : flow.Begun ports (store.after ports before)) (rest : List AuthChoice) :
    flow.Begun ports (store.after ports (before ++ rest)) := by
  obtain ⟨starter, hstarter, hrequest, hstarted⟩ := hbegun
  obtain ⟨later, hlater, hsame, hgrown⟩ := mem_processes_later hstarter rest
  exact ⟨later, hlater, hsame.trans hrequest, hstarted.mono hgrown⟩

theorem RegistrationFlow.Drew.later {before : List AuthChoice} {code : String}
    (hdrew : flow.Drew ports (store.after ports before) code) (rest : List AuthChoice) :
    flow.Drew ports (store.after ports (before ++ rest)) code := by
  rcases hdrew with hfirst | ⟨resender, hresender, command, recipientEmail, rotated, hrequest,
    htoken, hrotated, hid⟩
  · exact Or.inl hfirst
  · obtain ⟨later, hlater, hsame, hgrown⟩ := mem_processes_later hresender rest
    exact Or.inr ⟨later, hlater, command, recipientEmail, rotated, hsame.trans hrequest, htoken,
      hrotated.mono hgrown, hid⟩

theorem RegistrationFlow.Waits.later {before : List AuthChoice} {code : String}
    {pending : PendingEmailPasswordRegistration}
    (hwaits : flow.Waits ports (store.after ports before) code pending)
    (rest : List AuthChoice) :
    flow.Waits ports (store.after ports (before ++ rest)) code pending :=
  ⟨hwaits.begun.later rest, hwaits.drew.later rest, hwaits.fields⟩

/-- What an execution sets is a pending value of a flow if every value that it can have
read is. -/
theorem SetsPending.waits (hhash : Function.Injective ports.hashToken)
    {choices : List AuthChoice} {process : AuthProcess}
    (hprocess : process ∈ (store.after ports choices).processes) {rawToken : String}
    {pending : PendingEmailPasswordRegistration}
    (hsets : SetsPending ports rawToken process.request process.history pending)
    (hread : ∀ value shown, ReadPending ports rawToken process.history value shown →
      ∃ flow : RegistrationFlow, ∃ code, flow.rawToken = rawToken ∧
        flow.Waits ports (store.after ports choices) code shown) :
    ∃ flow : RegistrationFlow, ∃ code, flow.rawToken = rawToken ∧
      flow.Waits ports (store.after ports choices) code pending := by
  generalize hrequest : process.request = request at hsets
  generalize hhistory : process.history = history at hsets hread
  cases hsets with
  | @start command history token code normalizedEmail _ hkey hstarted =>
      have htoken := registrationKey_inj hhash hkey
      subst htoken
      refine ⟨⟨command, token, code, normalizedEmail, pending⟩, code, rfl, ?_, Or.inl rfl, ?_⟩
      · exact ⟨process, hprocess, hrequest, by rw [hhistory]; exact hstarted⟩
      · rw [← hstarted.codeHash]
  | @resend command history code recipientEmail _ hkey hrotated =>
      have htoken := registrationKey_inj hhash hkey
      subst htoken
      obtain ⟨value, shown, hshown, hrecipient, hfields⟩ := hrotated.read
      obtain ⟨flow, old, htoken, hwaits⟩ := hread value shown hshown
      have hid : pending.fields.registrationId = flow.pending.fields.registrationId := by
        rw [hfields, hwaits.fields]
      refine ⟨flow, code, htoken, hwaits.begun, Or.inr ?_, ?_⟩
      · exact ⟨process, hprocess, command, recipientEmail, pending, hrequest, htoken.symm,
          by rw [hhistory]; exact hrotated, hid⟩
      · rw [hfields, hwaits.fields, htoken]
  | @verify command history _ hkey hcounted =>
      have htoken := registrationKey_inj hhash hkey
      subst htoken
      obtain ⟨value, shown, hshown, hfields⟩ := hcounted
      obtain ⟨flow, code, htoken, hwaits⟩ := hread value shown hshown
      refine ⟨flow, code, htoken, hwaits.begun, hwaits.drew, ?_⟩
      rw [hfields, hwaits.fields]

/-- Run lemma: every value that a store of the run holds under the key of a token is a
pending value of a flow with this token. -/
theorem stored_waits (hround : RoundTrips ports) (hhash : Function.Injective ports.hashToken)
    (hnone : ∀ rawToken, store.pendingOf ports rawToken = none) {choices : List AuthChoice}
    (hflow : ∀ choice ∈ choices, choice.StartsRegistration) :
    ∀ moment ≤ choices.length, ∀ rawToken value pending,
      (store.idle.storeAt (AuthRequest.program ports) choices moment).pendingOf ports rawToken =
          some (value, pending) →
        ∃ flow : RegistrationFlow, ∃ code, flow.rawToken = rawToken ∧
          flow.Waits ports (store.after ports choices) code pending := by
  induction choices using List.reverseRecOn with
  | nil =>
      intro moment _ rawToken value pending hpending
      simp only [System.storeAt, List.take_nil] at hpending
      have hfirst : store.pendingOf ports rawToken = some (value, pending) := hpending
      rw [hnone] at hfirst
      cases hfirst
  | append_singleton choices choice ih =>
      have hearlier := ih fun choice hmem => hflow choice (List.mem_append_left _ hmem)
      have hlater : ∀ moment ≤ choices.length, ∀ rawToken value pending,
          (store.idle.storeAt (AuthRequest.program ports) choices moment).pendingOf ports
              rawToken = some (value, pending) →
            ∃ flow : RegistrationFlow, ∃ code, flow.rawToken = rawToken ∧
              flow.Waits ports (store.after ports (choices ++ [choice])) code pending := by
        intro moment hmoment rawToken value pending hpending
        obtain ⟨flow, code, htoken, hwaits⟩ :=
          hearlier moment hmoment rawToken value pending hpending
        exact ⟨flow, code, htoken, hwaits.later [choice]⟩
      intro moment hmoment rawToken value pending hpending
      by_cases hlast : moment ≤ choices.length
      · rw [System.storeAt_append store.idle [choice] hlast] at hpending
        exact hlater moment hlast rawToken value pending hpending
      · have hwhole : moment = (choices ++ [choice]).length := by
          rw [List.length_append, List.length_singleton] at hmoment ⊢
          omega
        have hnow := hlater choices.length (Nat.le_refl _) rawToken value pending
        rw [System.storeAt_length store.idle] at hnow
        rw [hwhole, System.storeAt_length store.idle] at hpending
        have hsnoc : store.idle.run (AuthRequest.program ports) (choices ++ [choice]) =
            (store.after ports choices).step (AuthRequest.program ports) choice :=
          store.after_snoc ports choices choice
        rw [hsnoc] at hpending
        cases hcommit : (store.after ports choices).commit? choice with
        | none =>
            rw [System.step_store_of_no_commit hcommit] at hpending
            exact hnow hpending
        | some commit =>
            rw [System.step_store_of_commit hcommit] at hpending
            obtain ⟨hprocess, _, happly⟩ := System.commit?_eq_some hcommit
            have hrequest : commit.process.request.OfRegistration :=
              hflow (.start commit.process.request)
                (List.mem_append_left _ (request_started choices commit.process hprocess))
            rcases (flow_guard_commit hcommit).pendingOf hround hrequest happly hpending with
              hfound | hsets
            · exact hnow hfound
            · have hset := hsets.waits hhash hprocess fun value shown hread => by
                obtain ⟨instant, past, hfirst, hshown⟩ := hread
                obtain ⟨hinstant, hpast⟩ := read_storeAt choices commit.process hprocess
                  instant past (List.mem_of_head? hfirst)
                rw [hpast] at hshown
                exact hearlier instant (Nat.le_of_lt hinstant) rawToken value shown hshown
              obtain ⟨flow, code, htoken, hwaits⟩ := hset
              exact ⟨flow, code, htoken, hwaits.later [choice]⟩

theorem Announces.mono {request : AuthRequest} {before after : AuthHistory}
    {announcement : Announcement} (hannounces : Announces ports request before announcement)
    (hgrown : before <+: after) : Announces ports request after announcement := by
  cases hannounces with
  | start hstarted => exact Announces.start (hstarted.mono hgrown)
  | resend hrotated => exact Announces.resend (hrotated.mono hgrown)

theorem FlowJustified.sends {request : AuthRequest} {history : AuthHistory} {called : AuthCall}
    {announcement : Announcement} (hguard : FlowJustified ports request history (.call called))
    (hrequest : request.OfRegistration)
    (hcalled : AuthCall.announcement called = some announcement) :
    Announces ports request history announcement := by
  cases hguard with
  | call hother =>
      rw [hother] at hcalled
      cases hcalled
  | sendStarted hstarted =>
      cases hcalled
      exact Announces.start (hstarted.mono (List.prefix_append _ _))
  | sendRotated hrotated =>
      cases hcalled
      exact Announces.resend (hrotated.mono (List.prefix_append _ _))
  | elsewhere hother => exact absurd hrequest hother

/-- Whatever was sent or is about to be, its execution announces. -/
theorem announced {choices : List AuthChoice} {process : AuthProcess}
    (hprocess : process ∈ (store.after ports choices).processes)
    (hrequest : process.request.OfRegistration) {announcement : Announcement}
    (hmem : announcement ∈ announcementsOf process) :
    Announces ports process.request process.history announcement := by
  have hsent : announcement ∈ process.history.filterMap sentAnnouncement →
      Announces ports process.request process.history announcement := by
    refine @processes_induction auth _ _ _ _ (AuthRequest.program ports) _ _
      (fun _ (process : AuthProcess) => process.request.OfRegistration →
        announcement ∈ process.history.filterMap sentAnnouncement →
          Announces ports process.request process.history announcement) ?_ ?_ ?_ choices process
      hprocess hrequest
    · intro choices request _ hmem
      cases hmem
    · intro choices choice process hearlier
      exact hearlier
    · intro choices index reply process advanced hindex hearlier hadvance hrequest hmem
      have hbefore := List.mem_of_getElem? hindex
      rw [hadvance.request] at hrequest ⊢
      have hold : Announces ports process.request process.history announcement := by
        cases hadvance with
        | idle => exact hearlier hrequest hmem
        | query hnode | draw hnode hfresh | refuse hnode happly | commit hnode happly =>
            exact hearlier hrequest (by simpa [sentAnnouncement] using hmem)
        | call hnode =>
            simp only [List.filterMap_append, List.mem_append] at hmem
            rcases hmem with hmem | hnew
            · exact hearlier hrequest hmem
            · exact (flow_guard_call hbefore hnode).sends hrequest
                (by simpa [sentAnnouncement] using hnew)
      exact hold.mono hadvance.history_prefix
  rcases mem_announcementsOf.mp hmem with hold | ⟨called, next, hnode, hcalled⟩
  · exact hsent hold
  · exact (flow_guard_call hprocess hnode).sends hrequest hcalled

/-- The address of a flow is what its ciphertext decrypts to. -/
theorem RegistrationFlow.Begun.decrypts {choices : List AuthChoice}
    (hdecrypts : store.Along ports (Answers (Decrypts ports)) choices)
    (hbegun : flow.Begun ports (store.after ports choices)) :
    ports.decryptEmail flow.pending.fields.emailCiphertext = some flow.normalizedEmail := by
  obtain ⟨starter, hstarter, _, hstarted⟩ := hbegun
  have haccepted := @heard_accepted auth _ _ _ _ (AuthRequest.program ports) (Decrypts ports) _ _ _
    hdecrypts
  exact haccepted starter hstarter (.console (.encryptEmail flow.normalizedEmail)) _
    hstarted.emailCiphertext

/-- An identifier of registrations is drawn once, so it has one address. -/
theorem RegistrationFlow.Begun.same_email {choices : List AuthChoice}
    {other : RegistrationFlow} (hbegun : flow.Begun ports (store.after ports choices))
    (hother : other.Begun ports (store.after ports choices))
    (hid : flow.pending.fields.registrationId = other.pending.fields.registrationId) :
    flow.normalizedEmail = other.normalizedEmail := by
  obtain ⟨first, hfirst, hrequest, hstarted⟩ := hbegun
  obtain ⟨second, hsecond, hagain, hstartedAgain⟩ := hother
  obtain ⟨i, hi⟩ := List.mem_iff_getElem?.mp hfirst
  obtain ⟨j, hj⟩ := List.mem_iff_getElem?.mp hsecond
  have hdrew := hstarted.registrationId
  rw [hid] at hdrew
  have hsame := (@drawnApart_run auth _ _ _ _ (AuthRequest.program ports) _ _ choices).apart i j
    first second hi hj _ hdrew hstartedAgain.registrationId
  subst hsame
  rw [hi, Option.some.injEq] at hj
  subst hj
  rw [hrequest, AuthRequest.startEmailPasswordRegistration.injEq] at hagain
  have hemail := hstarted.email
  rw [hagain, hstartedAgain.email] at hemail
  exact (Option.some.inj hemail).symm

section Reads

variable (hround : RoundTrips ports) (hhash : Function.Injective ports.hashToken)
variable (hnone : ∀ rawToken, store.pendingOf ports rawToken = none)
variable {choices : List AuthChoice}
variable (hflow : ∀ choice ∈ choices, choice.StartsRegistration)

include hround hhash hnone hflow

/-- A value that an execution read under the key of a token is a pending value of a flow
with this token. -/
theorem read_waits {process : AuthProcess}
    (hprocess : process ∈ (store.after ports choices).processes) {rawToken value : String}
    {shown : PendingEmailPasswordRegistration}
    (hread : ReadPending ports rawToken process.history value shown) :
    ∃ flow : RegistrationFlow, ∃ code, flow.rawToken = rawToken ∧
      flow.Waits ports (store.after ports choices) code shown := by
  obtain ⟨instant, past, hfirst, hshown⟩ := hread
  obtain ⟨hinstant, hpast⟩ := read_storeAt choices process hprocess instant past
    (List.mem_of_head? hfirst)
  rw [hpast] at hshown
  exact stored_waits hround hhash hnone hflow instant (Nat.le_of_lt hinstant) rawToken value
    shown hshown

/-- A code is sent for a flow, to the address of the flow. -/
theorem announcement_flow (hdecrypts : store.Along ports (Answers (Decrypts ports)) choices)
    {announcement : Announcement}
    (hmem : announcement ∈ announcements (store.after ports choices)) :
    ∃ flow : RegistrationFlow, flow.Begun ports (store.after ports choices) ∧
      announcement.registrationId = flow.pending.fields.registrationId ∧
        announcement.recipientEmail = flow.normalizedEmail ∧
          flow.Drew ports (store.after ports choices) announcement.code := by
  obtain ⟨process, hprocess, hannounced⟩ := List.mem_flatMap.mp hmem
  have hrequest : process.request.OfRegistration :=
    hflow (.start process.request) (request_started choices process hprocess)
  have hannounces := announced hprocess hrequest hannounced
  generalize hasked : process.request = request at hannounces
  generalize hhistory : process.history = history at hannounces
  cases hannounces with
  | @start command history rawToken code normalizedEmail pending expiresAt hstarted =>
      refine ⟨⟨command, rawToken, code, normalizedEmail, pending⟩, ?_, rfl, rfl, Or.inl rfl⟩
      exact ⟨process, hprocess, hasked, by rw [hhistory]; exact hstarted⟩
  | @resend command history code recipientEmail rotated expiresAt hrotated =>
      obtain ⟨value, shown, hshown, hrecipient, hfields⟩ := hrotated.read
      rw [← hhistory] at hshown
      obtain ⟨flow, old, htoken, hwaits⟩ := read_waits hround hhash hnone hflow hprocess hshown
      have hid : rotated.fields.registrationId = flow.pending.fields.registrationId := by
        rw [hfields, hwaits.fields]
      have hemail := hwaits.begun.decrypts hdecrypts
      rw [hwaits.fields] at hrecipient
      dsimp only at hrecipient
      rw [hemail, Option.some.injEq] at hrecipient
      refine ⟨flow, hwaits.begun, hid, hrecipient.symm, Or.inr ?_⟩
      exact ⟨process, hprocess, command, recipientEmail, rotated, hasked, htoken.symm,
        by rw [hhistory]; exact hrotated, hid⟩

/-- Step lemma: the account that a step creates goes back to a flow. -/
theorem account_goesBack (hdecrypts : store.Along ports (Answers (Decrypts ports)) choices)
    (hnormal : ∀ email normalized, ports.normalizeEmail email = some normalized →
      ports.normalizeEmail normalized = some normalized)
    {choice : AuthChoice} {commit : AuthCommit}
    (hcommit : (store.after ports choices).commit? choice = some commit)
    {account : CreatedAccount} (haccount : commit.account? = some account) :
    ∃ flow, account.GoesBack ports (store.after ports choices) flow := by
  obtain ⟨hprocess, _, _⟩ := System.commit?_eq_some hcommit
  have hrequest : commit.process.request.OfRegistration :=
    hflow (.start commit.process.request) (request_started choices commit.process hprocess)
  have hguard := flow_guard_commit hcommit
  obtain ⟨process, write, after⟩ := commit
  unfold AuthCommit.account? at haccount
  dsimp only at hprocess hrequest hguard haccount
  generalize hasked : process.request = request at hguard hrequest
  generalize hhistory : process.history = history at hguard
  cases hguard with
  | @register command history value pending user identity email credential auditEvent hright
      hrows =>
      cases haccount
      have hread := hright.read
      rw [← hhistory] at hread
      obtain ⟨flow, code, htoken, hwaits⟩ :=
        read_waits hround hhash hnone hflow hprocess hread
      have hfields := hwaits.fields
      have hcode := hright.code
      rw [hfields, htoken] at hcode
      have hpresented := registrationCodeHash_inj hhash hcode
      obtain ⟨starter, hstarter, _, hstarted⟩ := hwaits.begun
      obtain ⟨decrypted, normalizedEmail, hdecrypted, hnormalized, hhashed⟩ := hrows.address
      rw [hfields] at hdecrypted
      dsimp only at hdecrypted
      rw [hwaits.begun.decrypts hdecrypts, Option.some.injEq] at hdecrypted
      rw [← hdecrypted, hnormal _ _ hstarted.email, Option.some.injEq] at hnormalized
      refine ⟨flow, hwaits.begun, ⟨command, hasked, htoken.symm, ?_⟩, ?_, ?_, ?_,
        hrows.emailUser, hrows.credentialUser⟩
      · rw [hpresented]
        exact hwaits.drew
      · rw [hrows.displayName, hfields, ← hstarted.displayName]
      · rw [hrows.passwordHash, hfields]
      · rw [hhashed, hnormalized]
  | elsewhere hother => exact absurd hrequest hother
  | _ => cases haccount

end Reads

theorem CreatedAccount.GoesBack.later {account : CreatedAccount} {before : List AuthChoice}
    (hgoes : account.GoesBack ports (store.after ports before) flow) (rest : List AuthChoice) :
    account.GoesBack ports (store.after ports (before ++ rest)) flow := by
  obtain ⟨command, hrequest, htoken, hdrew⟩ := hgoes.proof
  exact { hgoes with
    begun := hgoes.begun.later rest
    proof := ⟨command, hrequest, htoken, hdrew.later rest⟩ }

theorem createdAccounts_snoc (choices : List AuthChoice) (choice : AuthChoice) :
    createdAccounts ports store (choices ++ [choice]) =
      createdAccounts ports store choices ++
        ((store.after ports choices).commit? choice).toList.filterMap AuthCommit.account? := by
  rw [createdAccounts, System.commits_snoc store.idle, List.filterMap_append]
  rfl

/-- The accounts of both stores are those that the run has created. -/
structure HoldsAccounts (accounts : List CreatedAccount) (found : AuthStore) : Prop where
  users : found.database.tables.users = accounts.map CreatedAccount.user
  emails : found.database.tables.userEmails = accounts.map CreatedAccount.email
  credentials : found.database.tables.passwordCredentials =
    accounts.map CreatedAccount.credential

/-- Step lemma: a commit of a registration flow adds the account that it creates. -/
theorem HoldsAccounts.commit {accounts : List CreatedAccount} {found : AuthStore}
    {commit : AuthCommit} (hholds : HoldsAccounts accounts found)
    (hguard : FlowJustified ports commit.process.request commit.process.history
      (.commit commit.write))
    (hrequest : commit.process.request.OfRegistration)
    (happly : commit.write.apply found = some commit.after) :
    HoldsAccounts (accounts ++ commit.account?.toList) commit.after := by
  obtain ⟨process, write, after⟩ := commit
  unfold AuthCommit.account?
  dsimp only at hguard hrequest happly ⊢
  generalize process.request = request at hguard hrequest
  generalize process.history = history at hguard
  have hsame : after.database = found.database → HoldsAccounts (accounts ++ []) after := by
    intro hdatabase
    rw [List.append_nil]
    constructor
    · rw [hdatabase, hholds.users]
    · rw [hdatabase, hholds.emails]
    · rw [hdatabase, hholds.credentials]
  cases hguard with
  | register hright hrows =>
      simp only [AuthWrite.apply, Option.map_eq_some_iff] at happly
      obtain ⟨database, hdatabase, rfl⟩ := happly
      have hstatements := Write.apply_eq_some.mp hdatabase
      simp only [Write.statements, Option.some.injEq] at hstatements
      constructor <;>
        simp [← hstatements, hholds.users, hholds.emails, hholds.credentials]
  | elsewhere hother => exact absurd hrequest hother
  | _ =>
      cases happly
      exact hsame rfl

/-- Run lemma. -/
theorem holdsAccounts_after {accounts : List CreatedAccount}
    (hfirst : HoldsAccounts accounts store) {choices : List AuthChoice}
    (hflow : ∀ choice ∈ choices, choice.StartsRegistration) :
    HoldsAccounts (accounts ++ createdAccounts ports store choices)
      (store.after ports choices).world.store := by
  induction choices using List.reverseRecOn with
  | nil =>
      have hnothing : createdAccounts ports store [] = [] := rfl
      rw [hnothing, List.append_nil]
      exact hfirst
  | append_singleton choices choice ih =>
      have hbefore := ih fun choice hmem => hflow choice (List.mem_append_left _ hmem)
      rw [createdAccounts_snoc, AuthStore.after_snoc, ← List.append_assoc]
      cases hcommit : (store.after ports choices).commit? choice with
      | none =>
          rw [System.step_store_of_no_commit hcommit]
          simpa using hbefore
      | some commit =>
          rw [System.step_store_of_commit hcommit]
          obtain ⟨hprocess, _, happly⟩ := System.commit?_eq_some hcommit
          have hrequest : commit.process.request.OfRegistration :=
            hflow (.start commit.process.request)
              (List.mem_append_left _ (request_started choices commit.process hprocess))
          have hone : (some commit).toList.filterMap AuthCommit.account? =
              (AuthCommit.account? commit).toList := by
            cases haccount : AuthCommit.account? commit with
            | none => simp [haccount]
            | some account => simp [haccount]
          rw [hone]
          exact hbefore.commit (flow_guard_commit hcommit) hrequest happly

/-- Run lemma: every account that a run creates goes back to a flow. -/
theorem createdAccounts_goBack (hround : RoundTrips ports)
    (hhash : Function.Injective ports.hashToken)
    (hnone : ∀ rawToken, store.pendingOf ports rawToken = none)
    (hnormal : ∀ email normalized, ports.normalizeEmail email = some normalized →
      ports.normalizeEmail normalized = some normalized) {choices : List AuthChoice}
    (hflow : ∀ choice ∈ choices, choice.StartsRegistration)
    (hdecrypts : store.Along ports (Answers (Decrypts ports)) choices) :
    ∀ account ∈ createdAccounts ports store choices,
      ∃ flow, account.GoesBack ports (store.after ports choices) flow := by
  induction choices using List.reverseRecOn with
  | nil =>
      intro account hmem
      cases hmem
  | append_singleton choices choice ih =>
      have hbefore : ∀ choice ∈ choices, choice.StartsRegistration :=
        fun choice hmem => hflow choice (List.mem_append_left _ hmem)
      have hearlier := ((store.along_snoc ports choices choice).mp hdecrypts).1
      intro account hmem
      rw [createdAccounts_snoc] at hmem
      have hthen : ∃ flow, account.GoesBack ports (store.after ports choices) flow := by
        rcases List.mem_append.mp hmem with hold | hnew
        · exact ih hbefore hearlier account hold
        · obtain ⟨commit, hcommit, haccount⟩ := List.mem_filterMap.mp hnew
          exact account_goesBack hround hhash hnone hbefore hearlier hnormal
            (Option.mem_toList.mp hcommit) haccount
      obtain ⟨flow, hgoes⟩ := hthen
      exact ⟨flow, hgoes.later [choice]⟩

end Runs

/-- In every run of registrations, resends and verifications over empty stores: the rows
of the accounts are those that the run created, in order; every one goes back to a started
flow, whose token and a code drawn for it a verification presented; codes are sent for
started flows only, and to their addresses; and neither two accounts with one hash of an
address nor two accounts of one flow are ever created. -/
theorem accounts_from_started_flows (ports : AuthPorts) (hround : RoundTrips ports)
    (hhash : Function.Injective ports.hashToken)
    (hnormal : ∀ email normalized, ports.normalizeEmail email = some normalized →
      ports.normalizeEmail normalized = some normalized) (choices : List AuthChoice)
    (hflow : ∀ choice ∈ choices, choice.StartsRegistration)
    (hdecrypts : AuthStore.empty.Along ports (Answers (Decrypts ports)) choices) :
    HoldsAccounts (createdAccounts ports AuthStore.empty choices)
        (AuthStore.empty.after ports choices).world.store ∧
      (∀ account ∈ createdAccounts ports AuthStore.empty choices,
        ∃ flow, account.GoesBack ports (AuthStore.empty.after ports choices) flow) ∧
      (∀ flow : RegistrationFlow, flow.Begun ports (AuthStore.empty.after ports choices) →
        ∀ announcement ∈ announcements (AuthStore.empty.after ports choices),
          announcement.registrationId = flow.pending.fields.registrationId →
            announcement.recipientEmail = flow.normalizedEmail) ∧
      ((createdAccounts ports AuthStore.empty choices).map
        (·.email.emailLookupHash)).Nodup ∧
      (createdAccounts ports AuthStore.empty choices).Pairwise fun first second =>
        ∀ flow, first.GoesBack ports (AuthStore.empty.after ports choices) flow →
          ¬ second.GoesBack ports (AuthStore.empty.after ports choices) flow := by
  have hnone : ∀ rawToken, AuthStore.empty.pendingOf ports rawToken = none := fun _ => rfl
  have hnothing : HoldsAccounts [] AuthStore.empty := ⟨rfl, rfl, rfl⟩
  have hholds := @holdsAccounts_after ports AuthStore.empty [] hnothing choices hflow
  rw [List.nil_append] at hholds
  have hunique :=
    (AuthStore.empty.after ports choices).world.store.database.constraints.emailLookupHash
  rw [hholds.emails, UniqueOn, List.map_map] at hunique
  refine ⟨hholds, createdAccounts_goBack hround hhash hnone hnormal hflow hdecrypts, ?_, hunique,
    ?_⟩
  · intro flow hbegun announcement hmem hid
    obtain ⟨other, hother, hsame, hemail, _⟩ :=
      announcement_flow hround hhash hnone hflow hdecrypts hmem
    rw [hemail]
    exact hother.same_email hbegun (hsame.symm.trans hid)
  · refine (List.pairwise_map.mp hunique).imp ?_
    intro first second hne flow hfirst hsecond
    exact hne (hfirst.emailLookupHash.trans hsecond.emailLookupHash.symm)

namespace Scenario

/-- A text as long as a hash if it is short, from which what was hashed can be read. -/
def exactHash (text : String) : String :=
  String.ofList (text.toList ++ '1' :: List.replicate (63 - text.toList.length) '0')

theorem dropWhile_zeros (text : List Char) (count : Nat) :
    (List.replicate count '0' ++ '1' :: text).dropWhile (· == '0') = '1' :: text := by
  induction count with
  | zero => rfl
  | succ count ih => simp [List.replicate_succ, ih]

theorem exactHash_injective : Function.Injective exactHash := by
  intro first second hsame
  have hlists := congrArg (fun text => text.toList.reverse.dropWhile (· == '0')) hsame
  simp only [exactHash, String.toList_ofList, List.reverse_append, List.reverse_cons,
    List.reverse_replicate, List.append_assoc, List.singleton_append, dropWhile_zeros,
    List.cons.injEq, true_and, List.reverse_inj] at hlists
  exact String.toList_inj.mp hlists

/-- Ports whose hashes differ for different texts. -/
def exactPorts : AuthPorts :=
  { authPorts with hashToken := exactHash }

/-- A registration has set its value and not sent its code; the code is submitted. -/
def unsentCode : List AuthChoice :=
  [.start (.startEmailPasswordRegistration ⟨address 'a', "long-password", "N", 5⟩)] ++
    authTurns 0 10 8 ++
      ([.start (.verifyEmailPasswordRegistration ⟨"token-11", "123456", 6⟩)] ++
        authTurns 1 30 10)

theorem unsentCode_creates :
    AuthStore.empty.Along exactPorts (Answers (Decrypts exactPorts)) unsentCode ∧
      (createdAccounts exactPorts AuthStore.empty unsentCode).length = 1 ∧
        announcements (AuthStore.empty.after exactPorts unsentCode) = [] := by
  decide +kernel

end Scenario

/-- A code is submitted that has not been sent. -/
theorem accounts_from_started_flows_unsent :
    HoldsAccounts (createdAccounts Scenario.exactPorts AuthStore.empty Scenario.unsentCode)
        (AuthStore.empty.after Scenario.exactPorts Scenario.unsentCode).world.store ∧
      ∀ account ∈ createdAccounts Scenario.exactPorts AuthStore.empty Scenario.unsentCode,
        ∃ flow, account.GoesBack Scenario.exactPorts
          (AuthStore.empty.after Scenario.exactPorts Scenario.unsentCode) flow := by
  have hgoes := accounts_from_started_flows Scenario.exactPorts Scenario.decode_encode
    Scenario.exactHash_injective (fun _ _ _ => rfl) Scenario.unsentCode
    (by decide +kernel) Scenario.unsentCode_creates.1
  exact ⟨hgoes.1, hgoes.2.1⟩

/-- It creates an account all the same. -/
theorem account_without_sent_code :
    Function.Injective Scenario.exactPorts.hashToken ∧
      Function.Injective Scenario.exactPorts.lookupHash ∧
      AuthStore.empty.Along Scenario.exactPorts (Answers (Decrypts Scenario.exactPorts))
        Scenario.unsentCode ∧
      ¬ ∀ account ∈ createdAccounts Scenario.exactPorts AuthStore.empty Scenario.unsentCode,
        ∃ flow : RegistrationFlow, flow.Begun Scenario.exactPorts
            (AuthStore.empty.after Scenario.exactPorts Scenario.unsentCode) ∧
          ∃ command, account.creator.request = .verifyEmailPasswordRegistration command ∧
            command.token = flow.rawToken ∧
              ∃ announcement ∈ announcements
                  (AuthStore.empty.after Scenario.exactPorts Scenario.unsentCode),
                announcement.recipientEmail = flow.normalizedEmail ∧
                  announcement.code = command.code := by
  obtain ⟨hdecrypts, hone, hnothing⟩ := Scenario.unsentCode_creates
  refine ⟨Scenario.exactHash_injective, fun _ _ hsame => hsame, hdecrypts, ?_⟩
  intro hevery
  obtain ⟨account, haccount⟩ := List.length_eq_one_iff.mp hone
  obtain ⟨flow, _, command, _, _, announcement, hsent, _⟩ :=
    hevery account (by simp [haccount])
  rw [hnothing] at hsent
  cases hsent

end MuxivoConsole
