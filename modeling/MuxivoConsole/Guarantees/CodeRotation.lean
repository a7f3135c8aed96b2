/-
The code of a registration flow that works.  A resend sets a new code and then sends it;
it is the only one that works as long as nobody sets an older copy of the value again
and the codes are sent in the order in which they were set.
-/
import MuxivoConsole.Guarantees.GuessBudget
import MuxivoConsole.Guarantees.RegistrationFlows

namespace MuxivoConsole

open Interleaving

/-- The code that the notifier was asked to send. -/
def announcedCode (observation : Observation auth) : Option String :=
  (sentAnnouncement observation).map (·.code)

/-- The codes that were sent. -/
def sentCodes (system : AuthSystem) : List String :=
  system.processes.flatMap fun process => process.history.filterMap announcedCode

/-- The code that a process is about to send. -/
def codeToSend (system : AuthSystem) (index : Nat) : Option String :=
  match system.processes[index]? with
  | some process =>
      match process.execution with
      | .call called _ => (AuthCall.announcement called).map (·.code)
      | _ => none
  | none => none

/-- The resend has returned its token. -/
def ReturnedToken (rawToken : String) (system : AuthSystem) (index : Nat) : Prop :=
  ∃ process result, system.processes[index]? = some process ∧
    process.execution = .done (.ok (.verification result)) ∧ result.token = some rawToken

section Codes

variable (ports : AuthPorts) (rawToken : String) (store : AuthStore)

/-- The hash of the code with which the run finds the flow; it was sent before the run. -/
def firstCodeHash : Option String :=
  (store.pendingOf ports rawToken).map fun found => found.2.fields.verificationCodeHash

/-- The hash of the code that a resend sets. -/
def rotatedHash (change : AuthStore × AuthCommit) : Option String :=
  match change.2.process.request, change.2.write with
  | .resendEmailPasswordRegistration _, .replace _ value _ =>
      (ports.fromJson value).map (·.fields.verificationCodeHash)
  | _, _ => none

/-- The hashes of the codes of the flow, in the order in which they were set. -/
def codeHashes (choices : List AuthChoice) : List String :=
  (firstCodeHash ports rawToken store).toList ++
    (store.idle.changes (AuthRequest.program ports) choices).filterMap (rotatedHash ports)

/-- The hashes of the codes of the flow that have been sent. -/
def sentHashes (choices : List AuthChoice) : List String :=
  (firstCodeHash ports rawToken store).toList ++
    (sentCodes (store.after ports choices)).map (registrationCodeHash ports rawToken)

/-- The code had been sent. -/
def SentBefore (choices : List AuthChoice) (code : String) : Prop :=
  code ∈ sentCodes (store.after ports choices) ∨
    firstCodeHash ports rawToken store = some (registrationCodeHash ports rawToken code)

/-- Once a resend has returned its token, no verification that reads the store from then
on is accepted with a code that had been sent before the code of this resend. -/
def OnlyNewestCode (choices : List AuthChoice) : Prop :=
  ∀ before index reply code between choice rest,
    choices = before ++ .advance index reply :: (between ++ choice :: rest) →
    codeToSend (store.after ports before) index = some code →
    ∀ commit ∈ (store.after ports (before ++ .advance index reply :: between)).commit? choice,
      finishesFlow ports rawToken
        ((store.after ports (before ++ .advance index reply :: between)).world.store,
          commit) = true →
      ∀ command, commit.process.request = .verifyEmailPasswordRegistration command →
        ∀ read ∈ (reads commit.process.history).head?,
          ReturnedToken rawToken (store.after ports (choices.take read.1)) index →
            ¬ SentBefore ports rawToken store before command.code

/-- When a verification sets the value that it read, no resend has set a code since. -/
def CountsCurrent (before : List AuthChoice) (choice : AuthChoice) : Prop :=
  ∀ commit ∈ (store.after ports before).commit? choice,
    countsGuess ((store.after ports before).world.store, commit) = true →
      ∀ read ∈ (reads commit.process.history).head?,
        ∀ change ∈ (store.after ports (before.take read.1)).changes (AuthRequest.program ports)
          (before.drop read.1), rotatedHash ports change = none

instance (before : List AuthChoice) (choice : AuthChoice) :
    Decidable (CountsCurrent ports store before choice) :=
  inferInstanceAs (Decidable (∀ commit ∈ (store.after ports before).commit? choice,
    countsGuess ((store.after ports before).world.store, commit) = true →
      ∀ read ∈ (reads commit.process.history).head?,
        ∀ change ∈ (store.after ports (before.take read.1)).changes (AuthRequest.program ports)
          (before.drop read.1), rotatedHash ports change = none))

/-- When a resend sets a code, that code has not been sent. -/
def RotatesUnsent (before : List AuthChoice) (choice : AuthChoice) : Prop :=
  ∀ commit ∈ (store.after ports before).commit? choice,
    ∀ hash ∈ rotatedHash ports ((store.after ports before).world.store, commit),
      hash ∉ sentHashes ports rawToken store before

instance (before : List AuthChoice) (choice : AuthChoice) :
    Decidable (RotatesUnsent ports rawToken store before choice) :=
  inferInstanceAs (Decidable (∀ commit ∈ (store.after ports before).commit? choice,
    ∀ hash ∈ rotatedHash ports ((store.after ports before).world.store, commit),
      hash ∉ sentHashes ports rawToken store before))

/-- When a code is sent, the code that was set last has not been sent. -/
def SendsUnsent (before : List AuthChoice) (choice : AuthChoice) : Prop :=
  ∀ called ∈ (store.after ports before).call? choice,
    AuthCall.announcement called.2 ≠ none →
      ∀ hash ∈ (codeHashes ports rawToken store before).getLast?,
        hash ∉ sentHashes ports rawToken store before

instance (before : List AuthChoice) (choice : AuthChoice) :
    Decidable (SendsUnsent ports rawToken store before choice) :=
  inferInstanceAs (Decidable (∀ called ∈ (store.after ports before).call? choice,
    AuthCall.announcement called.2 ≠ none →
      ∀ hash ∈ (codeHashes ports rawToken store before).getLast?,
        hash ∉ sentHashes ports rawToken store before))

end Codes

section Runs

variable {ports : AuthPorts} {rawToken : String} {store : AuthStore}

theorem codeHashes_append (first second : List AuthChoice) :
    codeHashes ports rawToken store (first ++ second) =
      codeHashes ports rawToken store first ++
        ((store.after ports first).changes (AuthRequest.program ports) second).filterMap
          (rotatedHash ports) := by
  rw [codeHashes, System.changes_append store.idle, List.filterMap_append,
    ← List.append_assoc]
  rfl

theorem codeHashes_snoc (choices : List AuthChoice) (choice : AuthChoice) :
    codeHashes ports rawToken store (choices ++ [choice]) =
      codeHashes ports rawToken store choices ++
        ((store.after ports choices).commit? choice).toList.filterMap fun commit =>
          rotatedHash ports ((store.after ports choices).world.store, commit) := by
  rw [codeHashes_append]
  cases hcommit : (store.after ports choices).commit? choice with
  | none => simp [System.changes, hcommit]
  | some commit => simp [System.changes, hcommit, List.filterMap_cons]

/-- No code is set in a part of the run, so the last one is still the last. -/
theorem codeHashes_quiet {choices : List AuthChoice} {moment : Nat}
    (hquiet : ∀ change ∈ (store.after ports (choices.take moment)).changes
      (AuthRequest.program ports) (choices.drop moment), rotatedHash ports change = none) :
    codeHashes ports rawToken store choices =
      codeHashes ports rawToken store (choices.take moment) := by
  have hsplit := @codeHashes_append ports rawToken store (choices.take moment)
    (choices.drop moment)
  rw [List.take_append_drop, List.filterMap_eq_nil_iff.mpr hquiet, List.append_nil] at hsplit
  exact hsplit

theorem AuthRequest.OnFlow.ofRegistration {request : AuthRequest}
    (hflow : request.OnFlow rawToken) : request.OfRegistration := by
  cases request with
  | verifyEmailPasswordRegistration | resendEmailPasswordRegistration | elapse => trivial
  | _ => exact hflow.elim

/-- Where the pending value after a commit has its code from: it was there before, a
resend set it or a verification copied it. -/
theorem pendingOf_code (hround : RoundTrips ports) {found : AuthStore} {commit : AuthCommit}
    (hflow : commit.process.request.OnFlow rawToken)
    (hguard : FlowJustified ports commit.process.request commit.process.history
      (.commit commit.write))
    (happly : commit.write.apply found = some commit.after) {value : String}
    {pending : PendingEmailPasswordRegistration}
    (hpending : commit.after.pendingOf ports rawToken = some (value, pending)) :
    (rotatedHash ports (found, commit) = none ∧
        found.pendingOf ports rawToken = some (value, pending)) ∨
      rotatedHash ports (found, commit) = some pending.fields.verificationCodeHash ∨
      (rotatedHash ports (found, commit) = none ∧ countsGuess (found, commit) = true ∧
        ∃ old shown, ReadPending ports rawToken commit.process.history old shown ∧
          pending.fields.verificationCodeHash = shown.fields.verificationCodeHash) := by
  obtain ⟨hget, hfilled, hdecoded⟩ := AuthStore.pendingOf_eq_some.mp hpending
  have hkept : commit.write.putKey = none → commit.write.replacedKey = none →
      rotatedHash ports (found, commit) = none ∧
        found.pendingOf ports rawToken = some (value, pending) := by
    intro hput hreplace
    have hfound := AuthWrite.tokens_get happly (by simp [hput]) (by simp [hreplace]) hget
    refine ⟨?_, AuthStore.pendingOf_eq_some.mpr ⟨hfound, hfilled, hdecoded⟩⟩
    obtain ⟨process, write, after⟩ := commit
    unfold rotatedHash
    split
    · rename_i hwrite
      dsimp only at hwrite hreplace
      rw [hwrite] at hreplace
      cases hreplace
    · rfl
  obtain ⟨process, write, after⟩ := commit
  dsimp only at hflow hguard happly hget hkept ⊢
  generalize hrequest : process.request = request at hflow hguard
  generalize process.history = history at hguard ⊢
  cases hguard with
  | put => cases hflow
  | discardStarted => cases hflow
  | rotate hrotated =>
      have htoken : _ = rawToken := hflow
      cases happly
      rw [htoken, RedisOneTimeTokenStore.get_replace] at hget
      cases hget
      rw [hround] at hdecoded
      cases hdecoded
      have hset := hround pending
      exact Or.inr (Or.inl (by simp [rotatedHash, hrequest, hset]))
  | count hcounted =>
      obtain ⟨old, shown, hread, hfields⟩ := hcounted
      have htoken : _ = rawToken := hflow
      cases happly
      rw [htoken, RedisOneTimeTokenStore.get_replace] at hget
      cases hget
      rw [hround] at hdecoded
      cases hdecoded
      rw [htoken] at hread
      refine Or.inr (Or.inr ⟨by simp [rotatedHash, hrequest], by simp [countsGuess, hrequest],
        old, shown, hread, by rw [hfields]⟩)
  | discardRotated | accept | register | elapse => exact Or.inl (hkept rfl rfl)
  | elsewhere hother => exact absurd hflow.ofRegistration hother

/-- The stored code is the one that was set last, at every instant of a run in which no
older copy is set again. -/
theorem stored_code_last (hround : RoundTrips ports) {choices : List AuthChoice}
    (hflow : ∀ choice ∈ choices, choice.StartsOnFlow rawToken)
    (hcurrent : System.EveryStep (CountsCurrent ports store) choices) :
    ∀ moment ≤ choices.length, ∀ value pending,
      (store.idle.storeAt (AuthRequest.program ports) choices moment).pendingOf ports rawToken =
          some (value, pending) →
        (codeHashes ports rawToken store (choices.take moment)).getLast? =
          some pending.fields.verificationCodeHash := by
  induction choices using List.reverseRecOn with
  | nil =>
      intro moment _ value pending hpending
      simp only [System.storeAt, List.take_nil] at hpending
      have hfirst : store.pendingOf ports rawToken = some (value, pending) := hpending
      simp [codeHashes, firstCodeHash, hfirst, System.changes]
  | append_singleton choices choice ih =>
      have hbefore : ∀ choice ∈ choices, choice.StartsOnFlow rawToken :=
        fun choice hmem => hflow choice (List.mem_append_left _ hmem)
      have hearlier := ih hbefore hcurrent.first
      intro moment hmoment value pending hpending
      by_cases hlast : moment ≤ choices.length
      · rw [System.storeAt_append store.idle [choice] hlast] at hpending
        rw [List.take_append_of_le_length hlast]
        exact hearlier moment hlast value pending hpending
      · have hwhole : moment = (choices ++ [choice]).length := by
          rw [List.length_append, List.length_singleton] at hmoment ⊢
          omega
        have hnow := hearlier choices.length (Nat.le_refl _)
        rw [List.take_length, System.storeAt_length store.idle] at hnow
        rw [hwhole, System.storeAt_length store.idle] at hpending
        have hsnoc : store.idle.run (AuthRequest.program ports) (choices ++ [choice]) =
            (store.after ports choices).step (AuthRequest.program ports) choice :=
          store.after_snoc ports choices choice
        rw [hsnoc] at hpending
        rw [hwhole, List.take_length, codeHashes_snoc]
        cases hcommit : (store.after ports choices).commit? choice with
        | none =>
            rw [System.step_store_of_no_commit hcommit] at hpending
            simpa using hnow value pending hpending
        | some commit =>
            rw [System.step_store_of_commit hcommit] at hpending
            have hguard := flow_guard_commit hcommit
            obtain ⟨hprocess, _, happly⟩ := System.commit?_eq_some hcommit
            have hrequest : commit.process.request.OnFlow rawToken :=
              hbefore (.start commit.process.request)
                (request_started choices commit.process hprocess)
            rcases pendingOf_code hround hrequest hguard happly hpending with
              ⟨hnone, hfound⟩ | hset | ⟨hnone, hcounts, old, shown, hread, hsame⟩
            · simpa [hnone] using hnow value pending hfound
            · simp [hset]
            · -- no code was set since the verification read the value
              obtain ⟨instant, past, hfirst, hshown⟩ := hread
              obtain ⟨hinstant, hpast⟩ := read_storeAt choices commit.process hprocess instant
                past (List.mem_of_head? hfirst)
              have hquiet := hcurrent choices choice [] rfl commit hcommit hcounts
                (instant, past) hfirst
              rw [hpast] at hshown
              have hthen := hearlier instant (Nat.le_of_lt hinstant) old shown hshown
              simp only [hnone, Option.toList_some, List.filterMap_cons, List.filterMap_nil,
                List.append_nil]
              rw [codeHashes_quiet hquiet, hthen, hsame]

/-- What was sent stays sent. -/
theorem sentCodes_subset (before rest : List AuthChoice) :
    sentCodes (store.after ports before) ⊆ sentCodes (store.after ports (before ++ rest)) := by
  intro code hcode
  obtain ⟨process, hprocess, hsent⟩ := List.mem_flatMap.mp hcode
  obtain ⟨index, hindex⟩ := List.mem_iff_getElem?.mp hprocess
  obtain ⟨later, hlater, hgrown⟩ := System.history_grows hindex rest
  have happend : store.after ports (before ++ rest) =
      (store.after ports before).run (AuthRequest.program ports) rest :=
    System.run_append store.idle before rest
  rw [happend]
  apply List.mem_flatMap.mpr
  exact ⟨later, List.mem_of_getElem? hlater,
    (hgrown.sublist.filterMap announcedCode).subset hsent⟩

theorem sentHashes_subset (before rest : List AuthChoice) :
    sentHashes ports rawToken store before ⊆
      sentHashes ports rawToken store (before ++ rest) := by
  apply List.append_subset.mpr
  constructor
  · exact List.subset_append_left _ _
  · exact List.Subset.trans (List.map_subset _ (sentCodes_subset before rest))
      (List.subset_append_right _ _)

/-- From the instant at which a code is sent, the code set last is not one of those sent
before. -/
theorem last_code_unsent {before : List AuthChoice} {send : AuthChoice}
    {between : List AuthChoice}
    (hrotates : System.EveryStep (RotatesUnsent ports rawToken store)
      (before ++ send :: between))
    (hsends : SendsUnsent ports rawToken store before send)
    (hcalls : ∃ called ∈ (store.after ports before).call? send,
      AuthCall.announcement called.2 ≠ none) :
    ∀ hash ∈ (codeHashes ports rawToken store (before ++ send :: between)).getLast?,
      hash ∉ sentHashes ports rawToken store before := by
  induction between using List.reverseRecOn with
  | nil =>
      obtain ⟨called, hcalled, hannounces⟩ := hcalls
      have hnone : (store.after ports before).commit? send = none :=
        System.commit?_of_call hcalled
      rw [codeHashes_snoc, hnone]
      simp only [Option.toList_none, List.filterMap_nil, List.append_nil]
      exact hsends called hcalled hannounces
  | append_singleton between choice ih =>
      have hsplit : before ++ send :: (between ++ [choice]) =
          (before ++ send :: between) ++ [choice] := by simp
      rw [hsplit] at hrotates ⊢
      have hearlier := ih hrotates.first
      have hstep := hrotates (before ++ send :: between) choice [] rfl
      rw [codeHashes_snoc]
      cases hcommit : (store.after ports (before ++ send :: between)).commit? choice with
      | none => simpa using hearlier
      | some commit =>
          cases hset : rotatedHash ports
              ((store.after ports (before ++ send :: between)).world.store, commit) with
          | none => simpa [hset] using hearlier
          | some hash =>
              simp only [Option.toList_some, List.filterMap_cons, hset, List.filterMap_nil,
                List.getLast?_append, List.getLast?_singleton, Option.some_or, Option.mem_def,
                Option.some.injEq, forall_eq']
              intro hsent
              exact hstep commit hcommit hash hset
                (sentHashes_subset before (send :: between) hsent)

theorem codeToSend_eq_some {system : AuthSystem} {index : Nat} {code : String}
    (hcode : codeToSend system index = some code) (reply : Reply auth) :
    ∃ process called next, system.processes[index]? = some process ∧
      process.execution = .call called next ∧
        system.call? (.advance index reply) = some (process, called) ∧
          AuthCall.announcement called ≠ none := by
  unfold codeToSend at hcode
  split at hcode
  · rename_i process hprocess
    split at hcode
    · rename_i called next hnode
      have hcall : system.call? (.advance index reply) = some (process, called) := by
        simp [System.call?, hprocess, hnode]
      refine ⟨process, called, next, hprocess, hnode, hcall, ?_⟩
      intro hnone
      rw [hnone] at hcode
      cases hcode
    · cases hcode
  · cases hcode

/-- A resend that has returned by an instant sent its code before it. -/
theorem sent_before_return {before rest : List AuthChoice} {index moment : Nat}
    {code : String} (hcode : codeToSend (store.after ports before) index = some code)
    (reply : Reply auth)
    (hreturned : ReturnedToken rawToken
      (store.after ports ((before ++ .advance index reply :: rest).take moment)) index) :
    (before ++ .advance index reply :: rest).take moment =
      before ++ .advance index reply :: rest.take (moment - (before.length + 1)) := by
  have hlate : before.length < moment := by
    apply Nat.lt_of_not_le
    intro hle
    obtain ⟨sender, called, next, hsender, hnode, _⟩ := codeToSend_eq_some hcode reply
    obtain ⟨process, result, hprocess, hdone, _⟩ := hreturned
    rw [List.take_append_of_le_length hle] at hprocess
    have hstays := @System.done_stays auth _ _ _ _ (AuthRequest.program ports) _ _ _ hprocess
      _ hdone (before.drop moment)
    have hwhole : (store.after ports (before.take moment)).run (AuthRequest.program ports)
        (before.drop moment) = store.after ports before := by
      have happend : store.after ports (before.take moment ++ before.drop moment) =
          (store.after ports (before.take moment)).run (AuthRequest.program ports)
            (before.drop moment) :=
        System.run_append store.idle (before.take moment) (before.drop moment)
      rw [List.take_append_drop] at happend
      exact happend.symm
    rw [hwhole, hsender] at hstays
    cases hstays
    rw [hnode] at hdone
    cases hdone
  rw [List.take_append, List.take_of_length_le (Nat.le_of_lt hlate)]
  have hpositive : moment - before.length = (moment - (before.length + 1)) + 1 := by omega
  rw [hpositive, List.take_succ_cons]

/-- A verification that consumes the value of the flow read one with its own code. -/
theorem accepted_code {choices : List AuthChoice}
    (hflow : ∀ choice ∈ choices, choice.StartsOnFlow rawToken) {choice : AuthChoice}
    {commit : AuthCommit} (hcommit : (store.after ports choices).commit? choice = some commit)
    (hfinishes : finishesFlow ports rawToken ((store.after ports choices).world.store, commit) =
      true) {command : VerifyEmailPasswordRegistrationCommand}
    (hrequest : commit.process.request = .verifyEmailPasswordRegistration command) :
    ∃ value pending, ReadPending ports rawToken commit.process.history value pending ∧
      registrationCodeHash ports rawToken command.code =
        pending.fields.verificationCodeHash := by
  have hguard := flow_guard_commit hcommit
  obtain ⟨hprocess, _, _⟩ := System.commit?_eq_some hcommit
  have htoken : commit.process.request.OnFlow rawToken :=
    hflow (.start commit.process.request) (request_started choices commit.process hprocess)
  rw [hrequest] at hguard htoken
  have htoken : command.token = rawToken := htoken
  obtain ⟨process, write, after⟩ := commit
  dsimp only at hguard hfinishes ⊢
  generalize process.history = history at hguard ⊢
  cases hguard with
  | accept hright =>
      obtain ⟨hread, hcode⟩ := hright
      rw [htoken] at hread hcode
      exact ⟨_, _, hread, hcode⟩
  | count | register => cases hfinishes
  | elsewhere hother => exact absurd trivial hother

end Runs

namespace Scenario

/-- A pending registration with little in it. -/
def briefRegistration : PendingEmailPasswordRegistration where
  fields := {
    registrationId := 0
    emailCiphertext := [0]
    emailLookupHash := String.ofList (List.replicate 64 'a')
    passwordHash := "$argon2id$"
    displayName := "N"
    verificationCodeHash := registrationCodeHash authPorts "flow" "123456" }
  accepted := by decide +kernel

/-- The code of this registration has been sent. -/
def briefFlow : AuthStore where
  database := Database.empty
  tokens := {
    now := 0
    keys := Expiring.Keyspace.empty.hold (registrationKey authPorts "flow")
      ⟨encode briefRegistration, 1000⟩ }

/-- Services that draw another code. -/
def otherCode (name : Nat) : Reply auth where
  name := ⟨BitVec.ofNat 128 name⟩
  answer
    | .drawCode => (654321 : Fin 1000000)
    | call => (authReply 0 name).answer call

/-- Turns of an execution that draws another code. -/
def otherTurns (index name count : Nat) : List AuthChoice :=
  (List.range' name count).map fun name => .advance index (otherCode name)

/-- The code is asked for once more; the execution takes `count` turns. -/
def resent (index name count : Nat) : List AuthChoice :=
  [.start (.resendEmailPasswordRegistration ⟨"flow", 6⟩)] ++ otherTurns index name count

/-- A verification with a wrong code has read the value, and a second code is on the way. -/
def resentOverGuess : List AuthChoice :=
  submission 0 10 2 "000000" ++ resent 1 20 6

/-- The verification sets its copy, and the first code is submitted. -/
def guessOverResent : List AuthChoice :=
  authTurns 0 40 2 ++ submission 2 50 3 "123456"

end Scenario

end MuxivoConsole
