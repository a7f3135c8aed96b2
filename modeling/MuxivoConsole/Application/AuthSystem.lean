/-
The use cases around accounts as one system over the database and Redis.  The
clock of the Redis server goes on by steps of its own.
-/
import MuxivoConsole.Application.Console
import MuxivoConsole.Application.Credentials

namespace MuxivoConsole

open Interleaving

/-- A use case with its command. -/
inductive AuthRequest where
  | startEmailPasswordRegistration (command : StartEmailPasswordRegistrationCommand)
  | resendEmailPasswordRegistration (command : ResendEmailPasswordRegistrationCommand)
  | verifyEmailPasswordRegistration (command : VerifyEmailPasswordRegistrationCommand)
  | authenticateEmailPassword (command : AuthenticateEmailPasswordCommand)
  | resolveBrowserSession (rawToken : String)
  | listBrowserSessions (command : ListBrowserSessionsCommand)
  | reauthenticateBrowserSession (command : ReauthenticateBrowserSessionCommand)
  | revokeBrowserSession (command : RevokeBrowserSessionCommand)
  | revokeAllBrowserSessions (command : RevokeAllBrowserSessionsCommand)
  | cleanupSecurityRecords (command : CleanupSecurityRecordsCommand)
  | requestPasswordRecovery (command : RequestPasswordRecoveryCommand)
  | completePasswordRecovery (command : CompletePasswordRecoveryCommand)
  | changeEmailPassword (command : ChangeEmailPasswordCommand)
  | linkVerifiedIdentity (command : LinkVerifiedIdentityCommand)
  | unlinkLoginIdentity (command : UnlinkLoginIdentityCommand)
  /-- time passes at the Redis server -/
  | elapse (duration : Nat)
  deriving DecidableEq

/-- What a use case returns. -/
inductive AuthOutcome where
  | done
  | verification (result : EmailPasswordRegistrationVerificationResult)
  | issued (session : IssuedBrowserSession)
  | principal (principal : Option BrowserSessionPrincipal)
  | sessions (views : List BrowserSessionSecurityView)
  | revoked (count : Nat)
  | cleaned (result : CleanupSecurityRecordsResult)
  | identity (identity : LoginIdentity)
  | profile (profile : LoginIdentityProfile)
  deriving DecidableEq

/-- Tag the result of a use case. -/
def AuthUseCase.returning {α : Type} (tag : α → AuthOutcome) (useCase : AuthUseCase α) :
    AuthUseCase AuthOutcome := do
  let value ← useCase
  pure (tag value)

/-- One step of the Redis server's clock. -/
def AuthUseCase.elapse (duration : Nat) : AuthUseCase Unit := do
  let _ ← @Execution.transact auth Failure (.elapse duration)
  pure ()

def AuthRequest.program (ports : AuthPorts) : AuthRequest → AuthUseCase AuthOutcome
  | startEmailPasswordRegistration command =>
      .returning .verification (.startEmailPasswordRegistration ports command)
  | resendEmailPasswordRegistration command =>
      .returning .verification (.resendEmailPasswordRegistration ports command)
  | verifyEmailPasswordRegistration command =>
      .returning (fun _ => .done) (.verifyEmailPasswordRegistration ports command)
  | authenticateEmailPassword command =>
      .returning .issued (.authenticateEmailPassword ports command)
  | resolveBrowserSession rawToken =>
      .returning .principal (.resolveBrowserSession ports rawToken)
  | listBrowserSessions command => .returning .sessions (.listBrowserSessions command)
  | reauthenticateBrowserSession command =>
      .returning (fun _ => .done) (.reauthenticateBrowserSession ports command)
  | revokeBrowserSession command =>
      .returning (fun _ => .done) (.revokeBrowserSession command)
  | revokeAllBrowserSessions command =>
      .returning .revoked (.revokeAllBrowserSessions command)
  | cleanupSecurityRecords command =>
      .returning .cleaned (.cleanupSecurityRecords command)
  | requestPasswordRecovery command =>
      .returning (fun _ => .done) (.requestPasswordRecovery ports command)
  | completePasswordRecovery command =>
      .returning (fun _ => .done) (.completePasswordRecovery ports command)
  | changeEmailPassword command =>
      .returning (fun _ => .done) (.changeEmailPassword ports command)
  | linkVerifiedIdentity command => .returning .identity (.linkVerifiedIdentity command)
  | unlinkLoginIdentity command => .returning .profile (.unlinkLoginIdentity command)
  | elapse duration => .returning (fun _ => .done) (.elapse duration)

abbrev AuthWorld := World auth

abbrev AuthHistory := History auth

abbrev AuthProcess := Process auth AuthRequest Failure AuthOutcome

abbrev AuthSystem := System auth AuthRequest Failure AuthOutcome

abbrev AuthChoice := Choice auth AuthRequest

abbrev AuthCommit := Commit auth AuthRequest Failure AuthOutcome

namespace AuthStore

/-- Both stores as a fresh deployment finds them. -/
def empty : AuthStore :=
  ⟨Database.empty, ⟨0, Expiring.Keyspace.empty⟩⟩

/-- The identifiers that the database already uses; the generator does not draw
them again. -/
def identifiers (store : AuthStore) : List UUID :=
  store.database.tables.authSessions.map AuthSessionRecord.id ++
    store.database.tables.passwordRecoveryTransactions.map PasswordRecoveryTransactionRecord.id ++
      store.database.tables.auditEvents.map AuditEvent.id

/-- Nothing in progress over the two stores. -/
def idle (store : AuthStore) : AuthSystem :=
  System.idle ⟨store, store.identifiers⟩ store.identifiers

/-- The system after a run. -/
abbrev after (ports : AuthPorts) (store : AuthStore) (choices : List AuthChoice) :
    AuthSystem :=
  store.idle.run (AuthRequest.program ports) choices

/-- A property of every step of a run. -/
abbrev Along (ports : AuthPorts) (property : AuthSystem → AuthChoice → Prop)
    (store : AuthStore) (choices : List AuthChoice) : Prop :=
  System.Along (AuthRequest.program ports) property store.idle choices

theorem after_snoc (ports : AuthPorts) (store : AuthStore) (choices : List AuthChoice)
    (choice : AuthChoice) :
    store.after ports (choices ++ [choice]) =
      (store.after ports choices).step (AuthRequest.program ports) choice :=
  System.run_snoc store.idle choices choice

theorem along_snoc (ports : AuthPorts) {property : AuthSystem → AuthChoice → Prop}
    (store : AuthStore) (choices : List AuthChoice) (choice : AuthChoice) :
    store.Along ports property (choices ++ [choice]) ↔
      store.Along ports property choices ∧ property (store.after ports choices) choice :=
  System.along_snoc store.idle choices choice

/-- The store after the first choices of a run. -/
theorem storeAt_length (ports : AuthPorts) (store : AuthStore) (before rest : List AuthChoice) :
    store.idle.storeAt (AuthRequest.program ports) (before ++ rest) before.length =
      (store.after ports before).world.store := by
  simp only [System.storeAt, List.take_left']

end AuthStore

namespace Scenario

/-- A text as long as a hash, made of the last characters of what is hashed. -/
def digest (text : String) : String :=
  String.ofList ((text.toList.reverse.take 8).leftpad 64 '0')

/-- A text as runs of one character, with the number of further ones. -/
def runs : List Char → List (Char × Fin 128)
  | [] => []
  | character :: text =>
      match runs text with
      | [] => [(character, 0)]
      | (next, more) :: rest =>
          if h : character = next ∧ more.val < 127 then
            (character, ⟨more + 1, by omega⟩) :: rest
          else (character, 0) :: (next, more) :: rest

/-- A text written as its runs, with its end marked. -/
def mark (text : List Char) : List Char :=
  ((runs text).flatMap fun (character, more) => [Char.ofNat (more + 1), character]) ++
    [Char.ofNat 0]

/-- Read a marked text back, up to its end. -/
def unmark : List Char → Option (List Char × List Char)
  | [] => none
  | [count] => if count.toNat = 0 then some ([], []) else none
  | count :: character :: rest =>
      if count.toNat = 0 then some ([], character :: rest)
      else
        (unmark rest).map fun (text, rest) =>
          (List.replicate count.toNat character ++ text, rest)

/-- A serialization of pending registrations. -/
def encode (pending : PendingEmailPasswordRegistration) : String :=
  let fields := pending.fields
  String.ofList
    (mark ((List.ofFn fun index : Fin 128 => fields.registrationId.int.toNat.testBit index).map
        fun bit => if bit then '1' else '0') ++
      (mark (fields.emailCiphertext.map fun byte => Char.ofNat byte.toNat) ++
        (mark fields.emailLookupHash.toList ++ (mark fields.passwordHash.toList ++
          (mark fields.displayName.toList ++ (mark fields.verificationCodeHash.toList ++
            mark (List.replicate fields.attempts.toNat 'x')))))))

def decode (value : String) : Option PendingEmailPasswordRegistration := do
  let (bits, rest) ← unmark value.toList
  let (emailCiphertext, rest) ← unmark rest
  let (emailLookupHash, rest) ← unmark rest
  let (passwordHash, rest) ← unmark rest
  let (displayName, rest) ← unmark rest
  let (verificationCodeHash, rest) ← unmark rest
  let (attempts, _) ← unmark rest
  (Validated.make PendingEmailPasswordRegistrationFields.postInit {
    registrationId := ⟨BitVec.ofNat 128
      (Nat.ofBits fun index : Fin 128 => (bits.map (· == '1')).getD index false)⟩
    emailCiphertext := emailCiphertext.map fun character => UInt8.ofNat character.toNat
    emailLookupHash := String.ofList emailLookupHash
    passwordHash := String.ofList passwordHash
    displayName := String.ofList displayName
    verificationCodeHash := String.ofList verificationCodeHash
    attempts := attempts.length }).toOption

theorem flatMap_runs (text : List Char) :
    ((runs text).flatMap fun (character, more) => List.replicate (more.val + 1) character) =
      text := by
  induction text with
  | nil => rfl
  | cons character text ih =>
      rw [runs]
      split
      · rename_i hruns
        rw [hruns] at ih
        simp [← ih]
      · rename_i next more rest hruns
        rw [hruns] at ih
        split
        · rename_i hmore
          simp [← ih, hmore.1, List.replicate_succ]
        · simp [← ih]

theorem toNat_count (more : Fin 128) : (Char.ofNat (more + 1)).toNat = more + 1 := by
  revert more
  decide +kernel

theorem unmark_mark (text rest : List Char) :
    unmark (mark text ++ rest) = some (text, rest) := by
  have hall : ∀ cells : List (Char × Fin 128),
      unmark ((cells.flatMap fun (character, more) => [Char.ofNat (more + 1), character]) ++
          [Char.ofNat 0] ++ rest) =
        some (cells.flatMap fun (character, more) => List.replicate (more.val + 1) character,
          rest) := by
    intro cells
    induction cells with
    | nil => cases rest <;> rfl
    | cons cell cells ih =>
        obtain ⟨character, more⟩ := cell
        simp only [List.flatMap_cons, List.cons_append, List.nil_append, List.append_assoc,
          unmark, toNat_count] at ih ⊢
        simp [ih]
  rw [mark, hall, flatMap_runs]

theorem toNat_byte (byte : UInt8) : (Char.ofNat byte.toNat).toNat = byte.toNat := by
  have hall : ∀ value : Fin 256, (Char.ofNat value).toNat = value := by decide +kernel
  exact hall ⟨byte.toNat, byte.toNat_lt⟩

/-- Nothing is lost in the serialization. -/
theorem decode_encode (pending : PendingEmailPasswordRegistration) :
    decode (encode pending) = some pending := by
  have hlast := unmark_mark (List.replicate pending.fields.attempts.toNat 'x') []
  rw [List.append_nil] at hlast
  have hattempts := (PendingEmailPasswordRegistration.attempts_bounds pending).1
  have hbits : ∀ index : Fin 128,
      (((List.ofFn fun index : Fin 128 =>
          pending.fields.registrationId.int.toNat.testBit index).map
        fun bit => if bit then '1' else '0').map (· == '1')).getD index false =
          pending.fields.registrationId.int.toNat.testBit index := by
    intro index
    rw [List.getD_eq_getElem?_getD, List.getElem?_map, List.getElem?_map, List.getElem?_ofFn,
      dif_pos index.isLt]
    cases pending.fields.registrationId.int.toNat.testBit index <;> rfl
  have hbytes : ∀ byte : UInt8, UInt8.ofNat (Char.ofNat byte.toNat).toNat = byte := by
    intro byte
    rw [toNat_byte, UInt8.ofNat_toNat]
  simp only [decode, encode, String.toList_ofList, unmark_mark, hlast, Option.bind_eq_bind,
    Option.bind_some, Validated.make_toOption_eq_some, hbits, Nat.ofBits_testBit]
  obtain ⟨⟨id, ciphertext, lookupHash, passwordHash, displayName, codeHash, attempts⟩, _⟩ :=
    pending
  simp only [PendingEmailPasswordRegistrationFields.mk.injEq]
  refine ⟨?_, ?_, ?_, ?_, ?_, ?_, ?_⟩
  · rw [Nat.mod_eq_of_lt id.int.isLt, BitVec.ofNat_toNat, BitVec.setWidth_eq]
  · simp [hbytes, Function.comp_def]
  · rw [String.ofList_toList]
  · rw [String.ofList_toList]
  · rw [String.ofList_toList]
  · rw [String.ofList_toList]
  · rw [List.length_replicate, Int.toNat_of_nonneg hattempts]

/-- Ports with a transparent protection of passwords and tokens. -/
def authPorts : AuthPorts where
  normalizeEmail email := some email
  lookupHash email := email
  hashToken := digest
  hasProbe _ := true
  decryptEmail _ := some (address 'a')
  verifyPassword passwordHash password := passwordHash == "$argon2id$" ++ password
  hashIpAddress := digest
  hashUserAgent := digest
  isUuid _ := true
  toJson := encode
  fromJson := decode

/-- Services that succeed at an instant; a token is named after the name that the
generator would give. -/
def authReply (now name : Nat) : Reply auth where
  name := ⟨BitVec.ofNat 128 name⟩
  answer
    | .console .now => (now : Nat)
    | .console .issueToken => ("token-" ++ toString name : String)
    | .console call => (reply healthy ⟨BitVec.ofNat 128 name⟩).answer call
    | .connectRedis => Delivery.answered
    | .hashPassword password => ("$argon2id$" ++ password : String)
    | .drawCode => (123456 : Fin 1000000)
    | .sendCode .. | .sendRecovery .. | .sendRecovered .. => (.ok () : Except Failure Unit)

/-- Let a process take `count` turns at an instant; the generator counts on from
`name`. -/
def authTurns (index name count : Nat) (now : Nat := 0) : List AuthChoice :=
  (List.range' name count).map fun name => .advance index (authReply now name)

/-- A user 1 who can sign in with an address and a password. -/
def signedUp : AuthStore where
  database := {
    tables := {
      users := [⟨1, .active, "founder"⟩]
      loginIdentities := [⟨2, 1, "email", address 'a'⟩]
      userEmails := [⟨3, 1, [0], address 'a', true⟩]
      passwordCredentials := [{ userId := 1, passwordHash := "$argon2id$first-password" }] }
    constraints := by decide }
  tokens := ⟨0, Expiring.Keyspace.empty⟩

end Scenario

end MuxivoConsole
