/-
A registration flow after its value has been consumed.  A verification with a wrong
code and a resend read the value and later set the key whatever it holds by then;
the flow stays finished as long as none of them reads before the consumption and
sets after it.
-/
import MuxivoConsole.Guarantees.AuthEvolution

namespace MuxivoConsole

open Interleaving Expiring

/-- A verification or a resend of the flow, or time that passes. -/
def AuthRequest.OnFlow (rawToken : String) : AuthRequest → Prop
  | verifyEmailPasswordRegistration command => command.token = rawToken
  | resendEmailPasswordRegistration command => command.token = rawToken
  | elapse _ => True
  | _ => False

instance (rawToken : String) : (request : AuthRequest) → Decidable (request.OnFlow rawToken)
  | .verifyEmailPasswordRegistration command =>
      inferInstanceAs (Decidable (command.token = rawToken))
  | .resendEmailPasswordRegistration command =>
      inferInstanceAs (Decidable (command.token = rawToken))
  | .elapse _ => inferInstanceAs (Decidable True)
  | .startEmailPasswordRegistration _ | .authenticateEmailPassword _ | .resolveBrowserSession _
  | .listBrowserSessions _ | .reauthenticateBrowserSession _ | .revokeBrowserSession _
  | .revokeAllBrowserSessions _ | .cleanupSecurityRecords _ | .requestPasswordRecovery _
  | .completePasswordRecovery _ | .changeEmailPassword _ | .linkVerifiedIdentity _
  | .unlinkLoginIdentity _ => inferInstanceAs (Decidable False)

/-- If the choice starts an execution, the execution is one of the flow. -/
def AuthChoice.StartsOnFlow (rawToken : String) : AuthChoice → Prop
  | .start request => request.OnFlow rawToken
  | .advance _ _ => True

instance (rawToken : String) : (choice : AuthChoice) →
    Decidable (choice.StartsOnFlow rawToken)
  | .start request => inferInstanceAs (Decidable (request.OnFlow rawToken))
  | .advance _ _ => inferInstanceAs (Decidable True)

/-- The key that a command to Redis sets only if it holds nothing. -/
def AuthWrite.putKey : AuthWrite → Option String
  | put key _ _ => some key
  | _ => none

/-- The key that a command to Redis sets whatever it holds. -/
def AuthWrite.replacedKey : AuthWrite → Option String
  | replace key _ _ => some key
  | _ => none

/-- The change consumes the value of the flow. -/
def finishesFlow (ports : AuthPorts) (rawToken : String) (change : AuthStore × AuthCommit) :
    Bool :=
  match change.2.write with
  | .consume key value =>
      key == registrationKey ports rawToken && change.1.tokens.get key == some value
  | _ => false

/-- The run has consumed the value of the flow. -/
def FlowFinished (ports : AuthPorts) (rawToken : String) (store : AuthStore)
    (choices : List AuthChoice) : Prop :=
  ∃ change ∈ store.idle.changes (AuthRequest.program ports) choices,
    finishesFlow ports rawToken change = true

instance (ports : AuthPorts) (rawToken : String) (store : AuthStore)
    (choices : List AuthChoice) : Decidable (FlowFinished ports rawToken store choices) :=
  inferInstanceAs (Decidable (∃ change ∈ store.idle.changes (AuthRequest.program ports)
    choices, finishesFlow ports rawToken change = true))

/-- After the step, nothing can be read of a flow that is finished by then. -/
def StaysFinished (ports : AuthPorts) (rawToken : String) (store : AuthStore)
    (before : List AuthChoice) (choice : AuthChoice) : Prop :=
  FlowFinished ports rawToken store (before ++ [choice]) →
    (store.after ports (before ++ [choice])).world.store.tokens.get
      (registrationKey ports rawToken) = none

instance (ports : AuthPorts) (rawToken : String) (store : AuthStore)
    (before : List AuthChoice) (choice : AuthChoice) :
    Decidable (StaysFinished ports rawToken store before choice) :=
  inferInstanceAs (Decidable (FlowFinished ports rawToken store (before ++ [choice]) →
    (store.after ports (before ++ [choice])).world.store.tokens.get
      (registrationKey ports rawToken) = none))

/-- When the step sets the key of the flow, its execution read the key after every
consumption of the flow. -/
def ReplacesUnfinished (ports : AuthPorts) (rawToken : String) (store : AuthStore)
    (before : List AuthChoice) (choice : AuthChoice) : Prop :=
  ∀ commit ∈ (store.after ports before).commit? choice,
    commit.write.replacedKey = some (registrationKey ports rawToken) →
      ∀ read ∈ (reads commit.process.history).head?,
        ∀ change ∈ (store.after ports (before.take read.1)).changes (AuthRequest.program ports)
          (before.drop read.1), finishesFlow ports rawToken change = false

instance (ports : AuthPorts) (rawToken : String) (store : AuthStore)
    (before : List AuthChoice) (choice : AuthChoice) :
    Decidable (ReplacesUnfinished ports rawToken store before choice) :=
  inferInstanceAs (Decidable (∀ commit ∈ (store.after ports before).commit? choice,
    commit.write.replacedKey = some (registrationKey ports rawToken) →
      ∀ read ∈ (reads commit.process.history).head?,
        ∀ change ∈ (store.after ports (before.take read.1)).changes (AuthRequest.program ports)
          (before.drop read.1), finishesFlow ports rawToken change = false))

/-- No other registration begins under the token of a finished one.  Verifications and
resends begin none. -/
def StartsUnfinished (ports : AuthPorts) (rawToken : String) (store : AuthStore)
    (before : List AuthChoice) (choice : AuthChoice) : Prop :=
  ∀ commit ∈ (store.after ports before).commit? choice,
    commit.write.putKey = some (registrationKey ports rawToken) →
      ¬ FlowFinished ports rawToken store before

instance (ports : AuthPorts) (rawToken : String) (store : AuthStore)
    (before : List AuthChoice) (choice : AuthChoice) :
    Decidable (StartsUnfinished ports rawToken store before choice) :=
  inferInstanceAs (Decidable (∀ commit ∈ (store.after ports before).commit? choice,
    commit.write.putKey = some (registrationKey ports rawToken) →
      ¬ FlowFinished ports rawToken store before))

section Commands

variable {write : AuthWrite} {found after : AuthStore} {key value : String}

/-- Only a command that sets a key brings a value under it. -/
theorem AuthWrite.tokens_get (happly : write.apply found = some after)
    (hput : write.putKey ≠ some key) (hreplace : write.replacedKey ≠ some key)
    (hget : after.tokens.get key = some value) : found.tokens.get key = some value := by
  cases write with
  | console write =>
      simp only [apply, Option.map_eq_some_iff] at happly
      obtain ⟨database, _, rfl⟩ := happly
      exact hget
  | account write =>
      simp only [apply, Option.map_eq_some_iff] at happly
      obtain ⟨database, _, rfl⟩ := happly
      exact hget
  | put other stored ttlSeconds =>
      cases happly
      have hne : key ≠ other := fun heq => hput (by rw [heq, putKey])
      exact RedisOneTimeTokenStore.get_put_of_ne hne ▸ hget
  | replace other stored ttlSeconds =>
      cases happly
      have hne : key ≠ other := fun heq => hreplace (by rw [heq, replacedKey])
      exact RedisOneTimeTokenStore.get_replace_of_ne hne ▸ hget
  | consume other asked =>
      cases happly
      exact RedisOneTimeTokenStore.get_consume hget
  | elapse duration =>
      cases happly
      exact RedisServer.get_elapse hget

/-- A value under a key that a command sets can be read right after it. -/
theorem AuthWrite.get_replaced (happly : write.apply found = some after)
    (hreplace : write.replacedKey = some key) : ∃ value, after.tokens.get key = some value := by
  cases write with
  | replace other stored ttlSeconds =>
      cases happly
      cases hreplace
      exact ⟨stored, RedisOneTimeTokenStore.get_replace found.tokens key stored ttlSeconds⟩
  | _ => cases hreplace

/-- Nothing is left under the key by a consumption of its value. -/
theorem get_finished {ports : AuthPorts} {rawToken : String} {commit : AuthCommit}
    (happly : commit.write.apply found = some commit.after)
    (hfinishes : finishesFlow ports rawToken (found, commit) = true) :
    commit.after.tokens.get (registrationKey ports rawToken) = none := by
  obtain ⟨process, write, after⟩ := commit
  cases write with
  | consume consumed asked =>
      simp only [finishesFlow, Bool.and_eq_true, beq_iff_eq] at hfinishes
      obtain ⟨rfl, hget⟩ := hfinishes
      cases happly
      exact RedisOneTimeTokenStore.get_consume_self hget
  | _ => cases hfinishes

end Commands

/-- An execution that sets the key of a flow found a value under it when it read. -/
theorem replace_read {ports : AuthPorts} {request : AuthRequest} {history : AuthHistory}
    {write : AuthWrite} {key : String}
    (hjustified : AuthJustified ports request history (.commit write))
    (hreplace : write.replacedKey = some key) :
    ∃ moment past, FirstRead history moment past ∧ past.tokens.get key ≠ none := by
  cases hjustified with
  | rotate hmay =>
      cases hreplace
      obtain ⟨moment, past, value, pending, hread, hpending, _⟩ := hmay.read
      refine ⟨moment, past, hread, ?_⟩
      intro hnone
      simp [AuthStore.pendingOf, hnone] at hpending
  | count hmay =>
      cases hreplace
      obtain ⟨moment, past, pending, hread, hwrong, _⟩ := hmay.read
      refine ⟨moment, past, hread, ?_⟩
      intro hnone
      simp [AuthStore.wrongGuess, AuthStore.pendingOf, hnone] at hwrong
  | _ => cases hreplace

section Runs

variable {ports : AuthPorts} {rawToken : String} {store : AuthStore}

theorem flowFinished_append {first second : List AuthChoice} :
    FlowFinished ports rawToken store (first ++ second) ↔
      FlowFinished ports rawToken store first ∨
        ∃ change ∈ (store.after ports first).changes (AuthRequest.program ports) second,
          finishesFlow ports rawToken change = true := by
  rw [FlowFinished, System.changes_append store.idle]
  simp only [List.mem_append, or_and_right, exists_or]
  exact Iff.rfl

/-- Step lemma: the flow stays finished over a commit whose execution, if it sets the
key, read it when the flow was unfinished or gone. -/
theorem finished_step {choices : List AuthChoice} {choice : AuthChoice}
    (hstart : StartsUnfinished ports rawToken store choices choice)
    (hreplace : ReplacesUnfinished ports rawToken store choices choice)
    (hearlier : ∀ moment ≤ choices.length,
      FlowFinished ports rawToken store (choices.take moment) →
        (store.idle.storeAt (AuthRequest.program ports) choices moment).tokens.get
          (registrationKey ports rawToken) = none) :
    StaysFinished ports rawToken store choices choice := by
  intro hfinished
  have hnow := hearlier choices.length (Nat.le_refl _)
  rw [List.take_length, System.storeAt_length store.idle] at hnow
  rw [AuthStore.after_snoc]
  cases hcommit : (store.after ports choices).commit? choice with
  | none =>
      rw [System.step_store_of_no_commit hcommit]
      apply hnow
      rcases flowFinished_append.mp hfinished with hbefore | ⟨change, hchange, _⟩
      · exact hbefore
      · simp [System.changes, hcommit] at hchange
  | some commit =>
      rw [System.step_store_of_commit hcommit]
      have hjustified : AuthJustified ports commit.process.request commit.process.history
          (.commit commit.write) := (auth_holds ports store choices).guard_commit hcommit
      obtain ⟨hprocess, _, happly⟩ := System.commit?_eq_some hcommit
      by_cases hfinishes : finishesFlow ports rawToken
          ((store.after ports choices).world.store, commit) = true
      · exact get_finished happly hfinishes
      · have hbefore : FlowFinished ports rawToken store choices := by
          rcases flowFinished_append.mp hfinished with hbefore | ⟨change, hchange, hfinishing⟩
          · exact hbefore
          · simp only [System.changes, hcommit, Option.map_some, Option.toList_some,
              List.append_nil, List.mem_singleton] at hchange
            rw [hchange] at hfinishing
            exact absurd hfinishing hfinishes
        cases hget : commit.after.tokens.get (registrationKey ports rawToken) with
        | none => rfl
        | some value =>
            exfalso
            have hput : commit.write.putKey ≠ some (registrationKey ports rawToken) :=
              fun hput => hstart commit hcommit hput hbefore
            by_cases hset : commit.write.replacedKey = some (registrationKey ports rawToken)
            · -- the value that it sets rests on one that it read before the consumption
              obtain ⟨moment, past, hread, hsome⟩ := replace_read hjustified hset
              have hkept := hreplace commit hcommit hset (moment, past) hread
              obtain ⟨hmoment, hstored⟩ := read_storeAt choices commit.process hprocess moment
                past (List.mem_of_head? hread)
              rw [← List.take_append_drop moment choices] at hbefore
              rcases flowFinished_append.mp hbefore with hpast | ⟨change, hchange, hfinishing⟩
              · apply hsome
                rw [hstored]
                exact hearlier moment (Nat.le_of_lt hmoment) hpast
              · rw [hkept change hchange] at hfinishing
                cases hfinishing
            · have hfound := AuthWrite.tokens_get happly hput hset hget
              rw [hnow hbefore] at hfound
              cases hfound

/-- Run lemma: at every instant of a run whose steps all meet the condition, nothing can
be read of a flow that is finished by then. -/
theorem finished_storeAt {choices : List AuthChoice}
    (hstart : System.EveryStep (StartsUnfinished ports rawToken store) choices)
    (hreplace : System.EveryStep (ReplacesUnfinished ports rawToken store) choices) :
    ∀ moment ≤ choices.length, FlowFinished ports rawToken store (choices.take moment) →
      (store.idle.storeAt (AuthRequest.program ports) choices moment).tokens.get
        (registrationKey ports rawToken) = none := by
  induction choices using List.reverseRecOn with
  | nil =>
      intro moment _ hfinished
      obtain ⟨change, hchange, _⟩ := hfinished
      simp [System.changes] at hchange
  | append_singleton choices choice ih =>
      have hearlier := ih hstart.first hreplace.first
      intro moment hmoment hfinished
      by_cases hlast : moment ≤ choices.length
      · rw [System.storeAt_append store.idle [choice] hlast]
        rw [List.take_append_of_le_length hlast] at hfinished
        exact hearlier moment hlast hfinished
      · have hwhole : moment = (choices ++ [choice]).length := by
          rw [List.length_append, List.length_singleton] at hmoment ⊢
          omega
        rw [hwhole, List.take_length] at hfinished
        rw [hwhole, System.storeAt_length store.idle]
        exact finished_step (hstart choices choice [] rfl) (hreplace choices choice [] rfl)
          hearlier hfinished

/-- Verifications and resends of a flow begin no registration. -/
theorem startsUnfinished_of_flow {choices : List AuthChoice}
    (hflow : ∀ choice ∈ choices, choice.StartsOnFlow rawToken) :
    System.EveryStep (StartsUnfinished ports rawToken store) choices := by
  intro before choice rest hsplit commit hcommit hput
  exfalso
  have hjustified : AuthJustified ports commit.process.request commit.process.history
      (.commit commit.write) := (auth_holds ports store before).guard_commit hcommit
  obtain ⟨hprocess, _, _⟩ := System.commit?_eq_some hcommit
  have hstarted := request_started before commit.process hprocess
  have hrequest : commit.process.request.OnFlow rawToken :=
    hflow (.start commit.process.request) (by rw [hsplit]; exact List.mem_append_left _ hstarted)
  obtain ⟨process, write, after⟩ := commit
  dsimp only at hjustified hput hrequest
  generalize process.request = request at hjustified hrequest
  cases hjustified with
  | startFlow | putReference => cases hrequest
  | _ => cases hput

end Runs

/-- In every run, over any two stores, in which the token of the flow is not issued
again: the finished flow stays finished if and only if each execution that sets its key
read the key after every consumption before. -/
theorem finished_flow_stays_finished_iff (ports : AuthPorts) (rawToken : String)
    (store : AuthStore) (choices : List AuthChoice)
    (hstart : System.EveryStep (StartsUnfinished ports rawToken store) choices) :
    System.EveryStep (StaysFinished ports rawToken store) choices ↔
      System.EveryStep (ReplacesUnfinished ports rawToken store) choices := by
  constructor
  · intro hstays before choice rest hsplit commit hcommit hset read _ change hchange
    rw [Bool.eq_false_iff]
    intro hfinishing
    have hfinished : FlowFinished ports rawToken store before := by
      rw [← List.take_append_drop read.1 before]
      exact flowFinished_append.mpr (Or.inr ⟨change, hchange, hfinishing⟩)
    have hnone := hstays before choice rest hsplit
      (flowFinished_append.mpr (Or.inl hfinished))
    obtain ⟨_, _, happly⟩ := System.commit?_eq_some hcommit
    obtain ⟨value, hsome⟩ := AuthWrite.get_replaced happly hset
    rw [AuthStore.after_snoc, System.step_store_of_commit hcommit, hsome] at hnone
    cases hnone
  · intro hreplace before choice rest hsplit
    have hextends : choices = (before ++ [choice]) ++ rest := by simp [hsplit]
    rw [hextends] at hstart hreplace
    have hfinished := finished_storeAt hstart.first hreplace.first (before ++ [choice]).length
      (Nat.le_refl _)
    rw [List.take_length, System.storeAt_length store.idle] at hfinished
    exact hfinished

namespace Scenario

/-- A registration that waits for its code. -/
def waitingRegistration : PendingEmailPasswordRegistration where
  fields := {
    registrationId := 9
    emailCiphertext := [0]
    emailLookupHash := address 'b'
    passwordHash := "$argon2id$other-password"
    displayName := "Newcomer"
    verificationCodeHash := registrationCodeHash authPorts "flow" "123456" }
  accepted := by decide +kernel

/-- The registration is started; its code is on the way. -/
def registering : AuthStore where
  database := signedUp.database
  tokens := {
    now := 0
    keys := Expiring.Keyspace.empty.hold (registrationKey authPorts "flow")
      ⟨encode waitingRegistration, 1000⟩ }

/-- A code is submitted, and the execution takes `count` turns. -/
def submission (index name count : Nat) (code : String) : List AuthChoice :=
  [.start (.verifyEmailPasswordRegistration ⟨"flow", code, 6⟩)] ++ authTurns index name count

/-- A wrong code, then the right one. -/
def orderedCodes : List AuthChoice :=
  submission 0 10 4 "000000" ++ submission 1 20 4 "123456"

/-- A verification with a wrong code has read the value; one with the right code
consumes it; then the first one sets it. -/
def crossedCodes : List AuthChoice :=
  submission 0 10 2 "000000" ++ submission 1 20 4 "123456" ++ authTurns 0 30 2

end Scenario

/-- Codes that come one after the other leave the flow finished. -/
theorem finished_flow_stays_finished_ordered :
    System.EveryStep (StaysFinished Scenario.authPorts "flow" Scenario.registering)
      Scenario.orderedCodes :=
  (finished_flow_stays_finished_iff Scenario.authPorts "flow" Scenario.registering
    Scenario.orderedCodes (by decide +kernel)).mpr (by decide +kernel)

/-- A wrong code that crosses the right one brings the value back. -/
theorem finished_flow_returns :
    ¬ System.EveryStep (StaysFinished Scenario.authPorts "flow" Scenario.registering)
      Scenario.crossedCodes := by
  intro hstays
  have hlast := hstays _ _ [] (List.dropLast_append_getLast (by decide +kernel)).symm
  revert hlast
  decide +kernel

end MuxivoConsole
