/-
The budget of wrong codes of one registration flow.  The number of wrong codes is
part of the stored value, which is read in one command and set in another; the
budget holds as long as the verifications and resends of the flow take turns.
-/
import MuxivoConsole.Guarantees.FinishedFlows

namespace MuxivoConsole

open Interleaving

section Counts

variable (ports : AuthPorts)

/-- What the codec of pending registrations writes, it reads back. -/
def RoundTrips : Prop :=
  ∀ pending, ports.fromJson (ports.toJson pending) = some pending

/-- The pending value against which the execution compares its code and finds it wrong,
if it reads this store. -/
def guessIn (process : AuthProcess) (store : AuthStore) :
    Option PendingEmailPasswordRegistration :=
  match process.request with
  | .verifyEmailPasswordRegistration command => store.wrongGuess ports command
  | _ => none

/-- The pending value against which the execution compared its code and found it
wrong. -/
def guessOf (process : AuthProcess) : Option PendingEmailPasswordRegistration :=
  (reads process.history).head?.bind fun (_, store) => guessIn ports process store

/-- A command that sets a key, whatever the key holds. -/
def setsKey : Observation auth → Bool
  | .wrote write true => write.replacedKey.isSome
  | _ => false

/-- The execution has set the key of the flow. -/
def hasSet (process : AuthProcess) : Bool :=
  process.history.any setsKey

/-- A wrong guess that is not counted yet. -/
def openGuess (process : AuthProcess) : Option PendingEmailPasswordRegistration :=
  if hasSet process then none else guessOf ports process

/-- A wrong guess that is counted. -/
def isCounted (process : AuthProcess) : Bool :=
  hasSet process && (guessOf ports process).isSome

/-- The wrong guesses that are not counted yet. -/
def openGuesses (system : AuthSystem) : List PendingEmailPasswordRegistration :=
  system.processes.filterMap (openGuess ports)

def countedGuesses (system : AuthSystem) : Nat :=
  system.processes.countP (isCounted ports)

/-- The verifications whose code was compared and found wrong. -/
def wrongGuesses (system : AuthSystem) : Nat :=
  system.processes.countP fun process => (guessOf ports process).isSome

end Counts

/-- The change counts a wrong guess. -/
def countsGuess (change : AuthStore × AuthCommit) : Bool :=
  match change.2.process.request, change.2.write with
  | .verifyEmailPasswordRegistration _, .replace .. => true
  | _, _ => false

/-- The commit puts a new code in place. -/
def rotatesCode (commit : AuthCommit) : Bool :=
  match commit.process.request, commit.write with
  | .resendEmailPasswordRegistration _, .replace .. => true
  | _, _ => false

/-- When a verification reads the value and finds its code wrong, every earlier wrong
guess has been counted. -/
def GuessesInTurn (ports : AuthPorts) (store : AuthStore) (before : List AuthChoice)
    (choice : AuthChoice) : Prop :=
  ∀ process ∈ (store.after ports before).query? choice, reads process.history = [] →
    guessIn ports process (store.after ports before).world.store ≠ none →
      openGuesses ports (store.after ports before) = []

instance (ports : AuthPorts) (store : AuthStore) (before : List AuthChoice)
    (choice : AuthChoice) : Decidable (GuessesInTurn ports store before choice) :=
  inferInstanceAs (Decidable (∀ process ∈ (store.after ports before).query? choice,
    reads process.history = [] →
      guessIn ports process (store.after ports before).world.store ≠ none →
        openGuesses ports (store.after ports before) = []))

/-- When a resend sets the key, no wrong guess has been counted since it read it. -/
def RotatesUncounted (ports : AuthPorts) (store : AuthStore) (before : List AuthChoice)
    (choice : AuthChoice) : Prop :=
  ∀ commit ∈ (store.after ports before).commit? choice, rotatesCode commit = true →
    ∀ read ∈ (reads commit.process.history).head?,
      ∀ change ∈ (store.after ports (before.take read.1)).changes (AuthRequest.program ports)
        (before.drop read.1), countsGuess change = false

instance (ports : AuthPorts) (store : AuthStore) (before : List AuthChoice)
    (choice : AuthChoice) : Decidable (RotatesUncounted ports store before choice) :=
  inferInstanceAs (Decidable (∀ commit ∈ (store.after ports before).commit? choice,
    rotatesCode commit = true → ∀ read ∈ (reads commit.process.history).head?,
      ∀ change ∈ (store.after ports (before.take read.1)).changes (AuthRequest.program ports)
        (before.drop read.1), countsGuess change = false))

section Processes

variable {ports : AuthPorts}

/-- The wrong guesses are those not counted yet and those counted. -/
theorem wrongGuesses_eq (system : AuthSystem) :
    wrongGuesses ports system =
      (openGuesses ports system).length + countedGuesses ports system := by
  unfold wrongGuesses openGuesses countedGuesses
  induction system.processes with
  | nil => rfl
  | cons process rest ih =>
      rw [List.countP_cons, List.countP_cons, ih]
      by_cases hset : hasSet process = true
      · have hopen : openGuess ports process = none := by simp [openGuess, hset]
        rw [List.filterMap_cons_none hopen]
        simp [isCounted, hset]
        omega
      · cases hguess : guessOf ports process with
        | none =>
            have hopen : openGuess ports process = none := by simp [openGuess, hguess]
            rw [List.filterMap_cons_none hopen]
            simp [isCounted, hguess]
        | some pending =>
            have hopen : openGuess ports process = some pending := by
              simp [openGuess, hset, hguess]
            rw [List.filterMap_cons_some hopen]
            simp [isCounted, hset]
            omega

theorem wrongGuess_attempts {command : VerifyEmailPasswordRegistrationCommand}
    {store : AuthStore} {pending : PendingEmailPasswordRegistration}
    (hwrong : store.wrongGuess ports command = some pending) :
    (∃ value, store.pendingOf ports command.token = some (value, pending)) ∧
      pending.fields.attempts < maxVerificationAttempts := by
  unfold AuthStore.wrongGuess at hwrong
  split at hwrong
  · cases hwrong
  · rename_i value found hfound
    split at hwrong
    · cases hwrong
    · rename_i hfew
      split at hwrong
      · cases hwrong
        exact ⟨⟨value, hfound⟩, Int.not_le.mp hfew⟩
      · cases hwrong

/-- An observation that is neither a read nor a set key tells nothing of a guess. -/
theorem guess_unchanged (process : AuthProcess) (observation : Observation auth)
    (execution : AuthUseCase AuthOutcome) (hreads : reads [observation] = [])
    (hset : setsKey observation = false) :
    openGuess ports { process with
        history := process.history ++ [observation], execution := execution } =
          openGuess ports process ∧
      isCounted ports { process with
        history := process.history ++ [observation], execution := execution } =
          isCounted ports process := by
  have hguess : guessOf ports { process with
      history := process.history ++ [observation], execution := execution } =
        guessOf ports process := by
    simp only [guessOf, reads_append, hreads, List.append_nil]
    rfl
  have hsame : hasSet { process with
      history := process.history ++ [observation], execution := execution } =
        hasSet process := by
    simp [hasSet, hset]
  simp [openGuess, isCounted, hguess, hsame]

/-- A further read tells nothing of a guess. -/
theorem guess_unchanged_of_read {process : AuthProcess} {moment : Nat} {world : AuthWorld}
    {execution : AuthUseCase AuthOutcome} (hread : reads process.history ≠ []) :
    openGuess ports { process with
        history := process.history ++ [.saw moment world], execution := execution } =
          openGuess ports process ∧
      isCounted ports { process with
        history := process.history ++ [.saw moment world], execution := execution } =
          isCounted ports process := by
  have hguess : guessOf ports { process with
      history := process.history ++ [.saw moment world], execution := execution } =
        guessOf ports process := by
    simp only [guessOf, reads_append, List.head?_append_of_ne_nil _ hread]
    rfl
  have hsame : hasSet { process with
      history := process.history ++ [.saw moment world], execution := execution } =
        hasSet process := by
    simp [hasSet, setsKey]
  simp [openGuess, isCounted, hguess, hsame]

end Processes

section Steps

variable {ports : AuthPorts} {store : AuthStore}

/-- How a choice that advances a process changes what is known of its guess. -/
inductive GuessMoves (ports : AuthPorts) (system : AuthSystem) (choice : AuthChoice)
    (process : AuthProcess) : AuthProcess → Prop
  | same {next}
      (hquiet : ∀ commit ∈ system.commit? choice,
        countsGuess (system.world.store, commit) = false)
      (hopen : openGuess ports next = openGuess ports process)
      (hcounted : isCounted ports next = isCounted ports process) :
      GuessMoves ports system choice process next
  | guess {next pending} (hquery : system.query? choice = some process)
      (hcommit : system.commit? choice = none) (hfirst : reads process.history = [])
      (hguess : guessIn ports process system.world.store = some pending)
      (hopen : openGuess ports process = none) (hnext : openGuess ports next = some pending)
      (hcounted : isCounted ports next = isCounted ports process) :
      GuessMoves ports system choice process next
  | count {next pending commit} (hcommit : system.commit? choice = some commit)
      (hcounts : countsGuess (system.world.store, commit) = true)
      (hprocess : commit.process = process) (hopen : openGuess ports process = some pending)
      (hnext : openGuess ports next = none) (huncounted : isCounted ports process = false)
      (hcounted : isCounted ports next = true) : GuessMoves ports system choice process next

/-- An execution that has set a key has read before. -/
theorem reads_of_hasSet (choices : List AuthChoice) :
    ∀ process ∈ (store.after ports choices).processes,
      hasSet process = true → reads process.history ≠ [] := by
  refine processes_induction (P := fun _ process =>
    hasSet process = true → reads process.history ≠ []) ?_ ?_ ?_ choices
  · intro choices request hset
    simp [hasSet] at hset
  · intro choices choice process hprocess
    exact hprocess
  · intro choices index reply process advanced hindex hprocess hadvance hset
    cases hadvance with
    | idle => exact hprocess hset
    | query hnode => simp
    | draw hnode hfresh => simpa [hasSet] using hprocess (by simpa [hasSet, setsKey] using hset)
    | refuse hnode happly => simpa [hasSet] using hprocess (by simpa [hasSet, setsKey] using hset)
    | call hnode => simpa [hasSet] using hprocess (by simpa [hasSet, setsKey] using hset)
    | @commit write next after hnode happly =>
        have hjustified : AuthJustified ports process.request process.history (.commit write) :=
          (auth_holds ports store choices).guard_node (List.mem_of_getElem? hindex) hnode
        intro hnone
        simp only [reads_append, reads_wrote, List.append_nil] at hnone
        rw [hasSet, List.any_append, Bool.or_eq_true] at hset
        rcases hset with hearlier | hsets
        · exact hprocess hearlier hnone
        · simp only [List.any_cons, List.any_nil, Bool.or_false, setsKey] at hsets
          obtain ⟨key, hreplaced⟩ := Option.isSome_iff_exists.mp hsets
          obtain ⟨moment, past, hread, _⟩ := replace_read hjustified hreplaced
          simp [FirstRead, hnone] at hread

/-- The first read of an execution shows whether it guesses wrong. -/
theorem guess_read {system : AuthSystem} {choice : AuthChoice} {process : AuthProcess}
    {moment : Nat} {execution : AuthUseCase AuthOutcome}
    (hquery : system.query? choice = some process) (hcommit : system.commit? choice = none)
    (hread : reads process.history = []) (hunset : hasSet process = false) :
    GuessMoves ports system choice process
      { process with
        history := process.history ++ [.saw moment system.world], execution := execution } := by
  have hbefore : guessOf ports process = none := by simp [guessOf, hread]
  have hguess : guessOf ports { process with
      history := process.history ++ [.saw moment system.world], execution := execution } =
        guessIn ports process system.world.store := by
    simp only [guessOf, reads_append, hread, List.nil_append, reads_saw, List.head?_cons,
      Option.bind_some]
    rfl
  have hsame : hasSet { process with
      history := process.history ++ [.saw moment system.world], execution := execution } =
        false := by
    simpa [hasSet, setsKey] using hunset
  cases hwrong : guessIn ports process system.world.store with
  | none =>
      rw [hwrong] at hguess
      exact .same (by simp [hcommit]) (by simp [openGuess, hbefore, hguess])
        (by simp [isCounted, hunset, hsame])
  | some pending =>
      rw [hwrong] at hguess
      exact .guess hquery hcommit hread hwrong (by simp [openGuess, hbefore])
        (by simp [openGuess, hsame, hguess]) (by simp [isCounted, hunset, hsame])

theorem countsGuess_of_unset {found after : AuthStore} {process : AuthProcess}
    {write : AuthWrite} (hunset : setsKey (.wrote write true) = false) :
    countsGuess (found, ⟨process, write, after⟩) = false := by
  cases write with
  | replace key value ttlSeconds => cases hunset
  | _ => simp [countsGuess]

theorem unset_of_unwritten {process : AuthProcess} (hfirst : Unwritten process.history) :
    hasSet process = false := by
  rw [Bool.eq_false_iff]
  intro hset
  obtain ⟨observation, hmem, hsets⟩ := List.any_eq_true.mp hset
  cases observation with
  | wrote write saved => exact hfirst write saved hmem
  | _ => cases hsets

/-- A command that sets a key counts the guess of a verification. -/
theorem guess_commit {system : AuthSystem} {choice : AuthChoice} {process : AuthProcess}
    {write : AuthWrite} {after : AuthStore} {execution : AuthUseCase AuthOutcome}
    (hjustified : AuthJustified ports process.request process.history (.commit write))
    (hcommit : system.commit? choice = some ⟨process, write, after⟩) :
    GuessMoves ports system choice process
      { process with
        history := process.history ++ [.wrote write true], execution := execution } := by
  have hguess : guessOf ports { process with
      history := process.history ++ [.wrote write true], execution := execution } =
        guessOf ports process := by
    simp only [guessOf, reads_append, reads_wrote, List.append_nil]
    rfl
  have hother : setsKey (.wrote write true) = false → GuessMoves ports system choice process
      { process with
        history := process.history ++ [.wrote write true], execution := execution } := by
    intro hunset
    obtain ⟨hopen, hcounted⟩ := guess_unchanged process (.wrote write true) execution rfl hunset
    refine .same ?_ hopen hcounted
    intro commit hsame
    rw [hcommit] at hsame
    cases hsame
    exact countsGuess_of_unset hunset
  cases write with
  | replace key value ttlSeconds =>
      have hset : hasSet { process with
          history := process.history ++ [.wrote (.replace key value ttlSeconds) true]
          execution := execution } = true := by
        simp [hasSet, setsKey, AuthWrite.replacedKey]
      generalize hnext : ({ process with
        history := process.history ++
          [Observation.wrote (AuthWrite.replace key value ttlSeconds) true]
        execution := execution } : AuthProcess) = next at hguess hset ⊢
      generalize hrequest : process.request = request at hjustified
      cases hjustified with
      | rotate hmay =>
          have hnone : guessOf ports process = none := by simp [guessOf, guessIn, hrequest]
          rw [hnone] at hguess
          refine .same ?_ (by simp [openGuess, hguess, hnone])
            (by simp [isCounted, hguess, hnone])
          intro commit hsame
          rw [hcommit] at hsame
          cases hsame
          simp [countsGuess, hrequest]
      | count hmay =>
          obtain ⟨moment, past, pending, hread, hwrong, _⟩ := hmay.read
          have hopen : guessOf ports process = some pending := by
            rw [FirstRead] at hread
            simp [guessOf, guessIn, hrequest, hread, hwrong]
          rw [hopen] at hguess
          have hunset : hasSet process = false := unset_of_unwritten hmay.first
          have hwaits : openGuess ports process = some pending := by
            simp [openGuess, hopen, hunset]
          exact .count hcommit (by simp [countsGuess, hrequest]) rfl hwaits
            (by simp [openGuess, hset]) (by simp [isCounted, hunset])
            (by simp [isCounted, hset, hguess])
  | _ => exact hother rfl

/-- What one turn of an execution does to its guess. -/
theorem guess_moves {choices : List AuthChoice} {index : Nat} {reply : Reply auth}
    {process : AuthProcess}
    (hindex : (store.after ports choices).processes[index]? = some process) :
    GuessMoves ports (store.after ports choices) (.advance index reply) process
      (process.advance (store.after ports choices).world (store.after ports choices).issued
        (store.after ports choices).moment reply).process := by
  have hmem := List.mem_of_getElem? hindex
  have hset := reads_of_hasSet choices process hmem
  cases hnode : process.execution with
  | done outcome =>
      simp only [Process.advance, hnode]
      exact .same (by simp [System.commit?, hindex, hnode]) rfl rfl
  | query next =>
      have hcommit : (store.after ports choices).commit? (.advance index reply) = none := by
        simp [System.commit?, hindex, hnode]
      have hquery : (store.after ports choices).query? (.advance index reply) = some process := by
        simp [System.query?, hindex, hnode]
      simp only [Process.advance, hnode]
      by_cases hread : reads process.history = []
      · have hunset : hasSet process = false := by
          rw [Bool.eq_false_iff]
          exact fun hset' => hset hset' hread
        exact guess_read hquery hcommit hread hunset
      · obtain ⟨hopen, hcounted⟩ := guess_unchanged_of_read hread
        exact .same (by simp [hcommit]) hopen hcounted
  | draw next =>
      simp only [Process.advance, hnode]
      split
      · exact .same (by simp [System.commit?, hindex, hnode]) rfl rfl
      · obtain ⟨hopen, hcounted⟩ := guess_unchanged process (.drew reply.name) (next reply.name) rfl
          rfl
        exact .same (by simp [System.commit?, hindex, hnode]) hopen hcounted
  | commit write next =>
      have hjustified : AuthJustified ports process.request process.history (.commit write) :=
        (auth_holds ports store choices).guard_node hmem hnode
      cases happly : AuthWrite.apply write (store.after ports choices).world.store with
      | none =>
          simp only [Process.advance, hnode, happly]
          obtain ⟨hopen, hcounted⟩ := guess_unchanged process (.wrote write false) (next none) rfl
            rfl
          exact .same (by simp [System.commit?, hindex, hnode, happly]) hopen hcounted
      | some after =>
          have hcommit : (store.after ports choices).commit? (.advance index reply) =
              some ⟨process, write, after⟩ := by
            simp [System.commit?, hindex, hnode, happly]
          simp only [Process.advance, hnode, happly]
          exact guess_commit hjustified hcommit
  | call request next =>
      simp only [Process.advance, hnode]
      obtain ⟨hopen, hcounted⟩ := guess_unchanged process
        (.heard request (reply.answer request)) (next (reply.answer request)) rfl rfl
      exact .same (by simp [System.commit?, hindex, hnode]) hopen hcounted

/-- What one choice does to the guesses of the pool. -/
inductive PoolMoves (ports : AuthPorts) (system : AuthSystem) (choice : AuthChoice)
    (next : AuthSystem) : Prop
  | same
      (hquiet : ∀ commit ∈ system.commit? choice,
        countsGuess (system.world.store, commit) = false)
      (hopen : openGuesses ports next = openGuesses ports system)
      (hcounted : countedGuesses ports next = countedGuesses ports system)
  | guess {process pending} (first second) (hquery : system.query? choice = some process)
      (hcommit : system.commit? choice = none) (hfirst : reads process.history = [])
      (hguess : guessIn ports process system.world.store = some pending)
      (hopen : openGuesses ports system = first ++ second)
      (hnext : openGuesses ports next = first ++ pending :: second)
      (hcounted : countedGuesses ports next = countedGuesses ports system)
  | count {commit pending} (first second) (hcommit : system.commit? choice = some commit)
      (hcounts : countsGuess (system.world.store, commit) = true)
      (hwaits : openGuess ports commit.process = some pending)
      (hopen : openGuesses ports system = first ++ pending :: second)
      (hnext : openGuesses ports next = first ++ second)
      (hcounted : countedGuesses ports next = countedGuesses ports system + 1)

/-- A new execution has guessed nothing, and the others keep their guesses. -/
theorem pool_moves (ports : AuthPorts) (store : AuthStore) (choices : List AuthChoice)
    (choice : AuthChoice) :
    PoolMoves ports (store.after ports choices) choice
      (store.after ports (choices ++ [choice])) := by
  rw [AuthStore.after_snoc]
  cases choice with
  | start request =>
      have hopen : ∀ moment, openGuess ports ⟨request, moment, [], request.program ports⟩ =
          none := by
        simp [openGuess, guessOf]
      have hcounted : ∀ moment, isCounted ports ⟨request, moment, [], request.program ports⟩ =
          false := by
        simp [isCounted, hasSet]
      refine .same (by simp [System.commit?]) ?_ ?_
      · simp [openGuesses, System.step, hopen]
      · simp [countedGuesses, System.step, hcounted]
  | advance index reply =>
      cases hindex : (store.after ports choices).processes[index]? with
      | none =>
          refine .same (by simp [System.commit?, hindex]) ?_ ?_
          · simp [openGuesses, System.step, hindex]
          · simp [countedGuesses, System.step, hindex]
      | some process =>
          have hmoves := @guess_moves ports store choices index reply process hindex
          obtain ⟨hbound, hprocess⟩ := List.getElem?_eq_some_iff.mp hindex
          have hstep : ((store.after ports choices).step (AuthRequest.program ports)
              (.advance index reply)).processes = (store.after ports choices).processes.set index
                (process.advance (store.after ports choices).world
                  (store.after ports choices).issued (store.after ports choices).moment
                  reply).process := by
            simp [System.step, hindex]
          generalize (process.advance (store.after ports choices).world
            (store.after ports choices).issued (store.after ports choices).moment
            reply).process = next at hmoves hstep
          obtain ⟨first, second, hbefore, _, hafter⟩ := @List.exists_of_set _ index next _ hbound
          rw [hprocess] at hbefore
          rw [hafter] at hstep
          cases hmoves with
          | same hquiet hopen hcounted =>
              refine .same hquiet ?_ ?_
              · simp [openGuesses, hstep, hbefore, List.filterMap_cons, hopen]
              · simp [countedGuesses, hstep, hbefore, List.countP_cons, hcounted]
          | guess hquery hcommit hread hguess hopen hnext hcounted =>
              refine .guess (first.filterMap (openGuess ports))
                (second.filterMap (openGuess ports)) hquery hcommit hread hguess ?_ ?_ ?_
              · simp [openGuesses, hbefore, hopen]
              · simp [openGuesses, hstep, hnext]
              · simp [countedGuesses, hstep, hbefore, List.countP_cons, hcounted]
          | count hcommit hcounts hprocess hopen hnext huncounted hcounted =>
              refine .count (first.filterMap (openGuess ports))
                (second.filterMap (openGuess ports)) hcommit hcounts (hprocess ▸ hopen) ?_ ?_ ?_
              · simp [openGuesses, hbefore, hopen]
              · simp [openGuesses, hstep, hnext]
              · simp [countedGuesses, hstep, hbefore, huncounted, hcounted]
                omega

/-- A choice that counts no guess leaves the number of counted ones. -/
theorem countedGuesses_quiet {choices : List AuthChoice} {choice : AuthChoice}
    (hquiet : ∀ commit ∈ (store.after ports choices).commit? choice,
      countsGuess ((store.after ports choices).world.store, commit) = false) :
    countedGuesses ports (store.after ports (choices ++ [choice])) =
      countedGuesses ports (store.after ports choices) := by
  cases pool_moves ports store choices choice with
  | same _ _ hcounted => exact hcounted
  | guess _ _ _ _ _ _ _ _ hcounted => exact hcounted
  | count _ _ hcommit hcounts =>
      rw [hquiet _ hcommit] at hcounts
      cases hcounts

/-- Only changes that count guesses make the counted ones more. -/
theorem countedGuesses_le (first second : List AuthChoice)
    (hnone : ∀ change ∈ (store.after ports first).changes (AuthRequest.program ports) second,
      countsGuess change = false) :
    countedGuesses ports (store.after ports (first ++ second)) ≤
      countedGuesses ports (store.after ports first) := by
  induction second using List.reverseRecOn with
  | nil => rw [List.append_nil]
  | append_singleton second choice ih =>
      rw [@System.changes_snoc auth _ _ _ _ (AuthRequest.program ports)
        (store.after ports first)] at hnone
      have hearlier := ih fun change hchange => hnone change (List.mem_append_left _ hchange)
      have hrun : (store.after ports first).run (AuthRequest.program ports) second =
          store.after ports (first ++ second) := (System.run_append store.idle first second).symm
      rw [← List.append_assoc]
      cases pool_moves ports store (first ++ second) choice with
      | same hquiet hopen hcounted => rwa [hcounted]
      | guess before after hquery hcommit hfirst hguess hopen hnext hcounted => rwa [hcounted]
      | count before after hcommit hcounts hwaits hopen hnext hcounted =>
          rw [← hrun] at hcommit hcounts
          rw [hcommit] at hnone
          have huncounted := hnone _ (List.mem_append_right _ List.mem_cons_self)
          rw [huncounted] at hcounts
          cases hcounts

end Steps

section Budget

variable {ports : AuthPorts} {store : AuthStore} {rawToken : String}

theorem AuthStore.pendingOf_eq_some {found : AuthStore} {value : String}
    {pending : PendingEmailPasswordRegistration} :
    found.pendingOf ports rawToken = some (value, pending) ↔
      found.tokens.get (registrationKey ports rawToken) = some value ∧ value ≠ "" ∧
        ports.fromJson value = some pending := by
  unfold AuthStore.pendingOf
  cases hget : found.tokens.get (registrationKey ports rawToken) with
  | none => simp
  | some stored =>
      by_cases hempty : stored = ""
      · simp only [hempty, ↓reduceIte, Option.some.injEq]
        constructor
        · intro hnone
          cases hnone
        · rintro ⟨rfl, hfilled, _⟩
          exact absurd rfl hfilled
      · simp only [hempty, ↓reduceIte, Option.map_eq_some_iff, Prod.mk.injEq,
          Option.some.injEq]
        constructor
        · rintro ⟨decoded, hdecoded, rfl, rfl⟩
          exact ⟨rfl, hempty, hdecoded⟩
        · rintro ⟨rfl, _, hdecoded⟩
          exact ⟨pending, hdecoded, rfl, rfl⟩

theorem guessOf_of_openGuess {process : AuthProcess}
    {pending : PendingEmailPasswordRegistration}
    (hopen : openGuess ports process = some pending) : guessOf ports process = some pending := by
  unfold openGuess at hopen
  split at hopen
  · cases hopen
  · exact hopen

/-- A wrong guess rests on the stored value of the flow, which is not locked. -/
theorem guessIn_stored {choices : List AuthChoice} {process : AuthProcess}
    {found : AuthStore} {pending : PendingEmailPasswordRegistration}
    (hflow : ∀ choice ∈ choices, choice.StartsOnFlow rawToken)
    (hprocess : process ∈ (store.after ports choices).processes)
    (hguess : guessIn ports process found = some pending) :
    ∃ value, found.pendingOf ports rawToken = some (value, pending) ∧
      pending.fields.attempts < maxVerificationAttempts := by
  have hrequest : process.request.OnFlow rawToken :=
    hflow (.start process.request) (request_started choices process hprocess)
  unfold guessIn at hguess
  split at hguess
  · rename_i command heq
    rw [heq] at hrequest
    have htoken : command.token = rawToken := hrequest
    obtain ⟨⟨value, hstored⟩, hfew⟩ := wrongGuess_attempts hguess
    rw [htoken] at hstored
    exact ⟨value, hstored, hfew⟩
  · cases hguess

/-- Where the pending value after a commit comes from: it was there before, a resend
set it or a verification did. -/
theorem pendingOf_commit (hround : RoundTrips ports) {found : AuthStore} {commit : AuthCommit}
    (hflow : commit.process.request.OnFlow rawToken)
    (hjustified : AuthJustified ports commit.process.request commit.process.history
      (.commit commit.write))
    (happly : commit.write.apply found = some commit.after) {value : String}
    {pending : PendingEmailPasswordRegistration}
    (hpending : commit.after.pendingOf ports rawToken = some (value, pending)) :
    (countsGuess (found, commit) = false ∧
        found.pendingOf ports rawToken = some (value, pending)) ∨
      (countsGuess (found, commit) = false ∧ rotatesCode commit = true ∧
        ∃ moment past old shown, FirstRead commit.process.history moment past ∧
          past.pendingOf ports rawToken = some (old, shown) ∧
            pending.fields.attempts = shown.fields.attempts) ∨
      (countsGuess (found, commit) = true ∧
        ∃ shown, guessOf ports commit.process = some shown ∧
          pending.fields.attempts = shown.fields.attempts + 1) := by
  obtain ⟨hget, hfilled, hdecoded⟩ := AuthStore.pendingOf_eq_some.mp hpending
  have hkept : commit.write.putKey = none → commit.write.replacedKey = none →
      found.pendingOf ports rawToken = some (value, pending) := by
    intro hput hreplace
    have hfound := AuthWrite.tokens_get happly (by simp [hput]) (by simp [hreplace]) hget
    exact AuthStore.pendingOf_eq_some.mpr ⟨hfound, hfilled, hdecoded⟩
  obtain ⟨process, write, after⟩ := commit
  dsimp only at hflow hjustified happly hget hkept ⊢
  generalize hrequest : process.request = request at hflow hjustified
  cases hjustified with
  | startFlow | putReference => cases hflow
  | @rotate command history rotated hmay =>
      obtain ⟨moment, past, old, shown, hread, hshown, hattempts⟩ := hmay.read
      have htoken : command.token = rawToken := hflow
      cases happly
      rw [htoken] at hshown hget
      rw [RedisOneTimeTokenStore.get_replace] at hget
      cases hget
      rw [hround] at hdecoded
      cases hdecoded
      exact Or.inr (Or.inl ⟨by simp [countsGuess, hrequest], by simp [rotatesCode, hrequest],
        moment, past, old, shown, hread, hshown, hattempts⟩)
  | @count command history counted hmay =>
      obtain ⟨moment, past, shown, hread, hwrong, hattempts⟩ := hmay.read
      have htoken : command.token = rawToken := hflow
      have hfew := (wrongGuess_attempts hwrong).2
      cases happly
      rw [htoken, RedisOneTimeTokenStore.get_replace] at hget
      cases hget
      rw [hround] at hdecoded
      cases hdecoded
      refine Or.inr (Or.inr ⟨by simp [countsGuess, hrequest], shown, ?_, ?_⟩)
      · rw [FirstRead] at hread
        simp [guessOf, guessIn, hrequest, hread, hwrong]
      · rw [hattempts]
        omega
  | _ => exact Or.inl ⟨by simp [countsGuess], hkept rfl rfl⟩

/-- The bookkeeping of one flow after a run: at most one wrong guess waits to be
counted, and neither the stored number nor the number that a waiting guess read is
behind the guesses that are counted. -/
structure Budgeted (ports : AuthPorts) (rawToken : String) (system : AuthSystem) : Prop where
  single : (openGuesses ports system).length ≤ 1
  stored : ∀ value pending,
    system.world.store.pendingOf ports rawToken = some (value, pending) →
      (countedGuesses ports system : Int) ≤ pending.fields.attempts
  waiting : ∀ pending ∈ openGuesses ports system,
    (countedGuesses ports system : Int) ≤ pending.fields.attempts ∧
      pending.fields.attempts < maxVerificationAttempts
  total : (countedGuesses ports system : Int) ≤ maxVerificationAttempts

theorem Budgeted.idle : Budgeted ports rawToken store.idle := by
  have hopen : openGuesses ports store.idle = [] := rfl
  have hcounted : countedGuesses ports store.idle = 0 := rfl
  refine ⟨by simp [hopen], ?_, by simp [hopen], by simp [hcounted, maxVerificationAttempts]⟩
  intro value pending _
  rw [hcounted]
  exact (PendingEmailPasswordRegistration.attempts_bounds pending).1

theorem Budgeted.wrongGuesses_le {system : AuthSystem}
    (hbudget : Budgeted ports rawToken system) :
    (wrongGuesses ports system : Int) ≤ maxVerificationAttempts := by
  have htotal := hbudget.total
  have hsingle := hbudget.single
  rw [wrongGuesses_eq]
  cases hopen : openGuesses ports system with
  | nil => simpa using htotal
  | cons pending rest =>
      have hwaiting := hbudget.waiting pending (by simp [hopen])
      rw [hopen, List.length_cons] at hsingle
      rw [List.length_cons]
      omega

/-- Step lemma for the stored number: it is not behind the guesses that are counted. -/
theorem Budgeted.stored_step (hround : RoundTrips ports) {choices : List AuthChoice}
    {choice : AuthChoice} (hflow : ∀ choice ∈ choices, choice.StartsOnFlow rawToken)
    (hrotate : RotatesUncounted ports store choices choice)
    (hearlier : ∀ moment ≤ choices.length,
      Budgeted ports rawToken (store.after ports (choices.take moment)))
    {value : String} {pending : PendingEmailPasswordRegistration}
    (hpending : (store.after ports (choices ++ [choice])).world.store.pendingOf ports rawToken =
      some (value, pending)) :
    (countedGuesses ports (store.after ports (choices ++ [choice])) : Int) ≤
      pending.fields.attempts := by
  have hbudget := hearlier choices.length (Nat.le_refl _)
  rw [List.take_length] at hbudget
  rw [AuthStore.after_snoc] at hpending
  cases hcommit : (store.after ports choices).commit? choice with
  | none =>
      rw [System.step_store_of_no_commit hcommit] at hpending
      rw [countedGuesses_quiet (by simp [hcommit])]
      exact hbudget.stored value pending hpending
  | some commit =>
      have hjustified : AuthJustified ports commit.process.request commit.process.history
          (.commit commit.write) := (auth_holds ports store choices).guard_commit hcommit
      obtain ⟨hprocess, _, happly⟩ := System.commit?_eq_some hcommit
      have hrequest : commit.process.request.OnFlow rawToken :=
        hflow (.start commit.process.request) (request_started choices commit.process hprocess)
      rw [System.step_store_of_commit hcommit] at hpending
      rcases pendingOf_commit hround hrequest hjustified happly hpending with
        ⟨hquiet, hfound⟩ | ⟨hquiet, hrotates, moment, past, old, shown, hread, hshown, hsame⟩ |
        ⟨hcounts, shown, hguess, hnext⟩
      · rw [countedGuesses_quiet (by simpa [hcommit] using hquiet)]
        exact hbudget.stored value pending hfound
      · -- nothing was counted since the resend read the number
        rw [countedGuesses_quiet (by simpa [hcommit] using hquiet), hsame]
        obtain ⟨hmoment, hpast⟩ := read_storeAt choices commit.process hprocess moment past
          (List.mem_of_head? hread)
        have hkept := hrotate commit hcommit hrotates (moment, past) hread
        have hcounted := countedGuesses_le (choices.take moment) _ hkept
        rw [List.take_append_drop] at hcounted
        rw [hpast] at hshown
        have hthen := (hearlier moment (Nat.le_of_lt hmoment)).stored old shown hshown
        omega
      · cases pool_moves ports store choices choice with
        | same hquiet =>
            rw [hquiet commit hcommit] at hcounts
            cases hcounts
        | guess _ _ _ hnone =>
            rw [hcommit] at hnone
            cases hnone
        | count first second hcommit' _ hwaits hopen _ hcounted =>
            rw [hcommit] at hcommit'
            cases hcommit'
            have hsame := guessOf_of_openGuess hwaits
            rw [hguess] at hsame
            cases hsame
            have hwaiting := hbudget.waiting shown (by simp [hopen])
            rw [hcounted, hnext]
            omega

/-- Step lemma: a choice that keeps the turns keeps the bookkeeping. -/
theorem Budgeted.step (hround : RoundTrips ports) {choices : List AuthChoice}
    {choice : AuthChoice} (hflow : ∀ choice ∈ choices, choice.StartsOnFlow rawToken)
    (hturn : GuessesInTurn ports store choices choice)
    (hrotate : RotatesUncounted ports store choices choice)
    (hearlier : ∀ moment ≤ choices.length,
      Budgeted ports rawToken (store.after ports (choices.take moment))) :
    Budgeted ports rawToken (store.after ports (choices ++ [choice])) := by
  have hbudget := hearlier choices.length (Nat.le_refl _)
  rw [List.take_length] at hbudget
  have hstored : ∀ value pending, (store.after ports (choices ++ [choice])).world.store.pendingOf
      ports rawToken = some (value, pending) →
        (countedGuesses ports (store.after ports (choices ++ [choice])) : Int) ≤
          pending.fields.attempts :=
    fun value pending hpending => Budgeted.stored_step hround hflow hrotate hearlier hpending
  have hsingle := hbudget.single
  have htotal := hbudget.total
  cases pool_moves ports store choices choice with
  | same hquiet hopen hcounted =>
      refine ⟨by rwa [hopen], hstored, ?_, by rwa [hcounted]⟩
      rw [hopen, hcounted]
      exact hbudget.waiting
  | @guess process pending first second hquery hcommit hfirst hguess hopen hnext hcounted =>
      -- the new guess finds no other one waiting, so it alone waits
      have hempty := hturn process hquery hfirst (by simp [hguess])
      rw [hopen, List.append_eq_nil_iff] at hempty
      rw [hempty.1, hempty.2, List.nil_append] at hnext
      refine ⟨by rw [hnext, List.length_singleton], hstored, ?_, by rwa [hcounted]⟩
      intro waiting hmem
      rw [hnext, List.mem_singleton] at hmem
      rw [hcounted, hmem]
      obtain ⟨value, hshown, hfew⟩ := guessIn_stored hflow (System.query?_mem hquery) hguess
      exact ⟨hbudget.stored value pending hshown, hfew⟩
  | @count commit pending first second hcommit hcounts hwaits hopen hnext hcounted =>
      have hwaiting := hbudget.waiting pending (by simp [hopen])
      have hnone : openGuesses ports (store.after ports (choices ++ [choice])) = [] := by
        rw [hopen, List.length_append, List.length_cons] at hsingle
        rw [hnext, List.append_eq_nil_iff, ← List.length_eq_zero_iff,
          ← List.length_eq_zero_iff]
        omega
      refine ⟨by rw [hnone]; exact Nat.zero_le 1, hstored, ?_, ?_⟩
      · rw [hnone]
        intro waiting hmem
        cases hmem
      · rw [hcounted]
        omega

/-- Run lemma: the bookkeeping holds at every instant. -/
theorem budgeted_after (hround : RoundTrips ports) {choices : List AuthChoice}
    (hflow : ∀ choice ∈ choices, choice.StartsOnFlow rawToken)
    (hturn : System.EveryStep (GuessesInTurn ports store) choices)
    (hrotate : System.EveryStep (RotatesUncounted ports store) choices) :
    ∀ moment ≤ choices.length,
      Budgeted ports rawToken (store.after ports (choices.take moment)) := by
  induction choices using List.reverseRecOn with
  | nil =>
      intro moment _
      rw [List.take_nil]
      exact Budgeted.idle
  | append_singleton choices choice ih =>
      have hbefore : ∀ choice ∈ choices, choice.StartsOnFlow rawToken :=
        fun choice hmem => hflow choice (List.mem_append_left _ hmem)
      have hearlier := ih hbefore hturn.first hrotate.first
      intro moment hmoment
      by_cases hlast : moment ≤ choices.length
      · rw [List.take_append_of_le_length hlast]
        exact hearlier moment hlast
      · rw [List.take_of_length_le (by rw [List.length_append, List.length_singleton]; omega)]
        exact Budgeted.step hround hbefore (hturn choices choice [] rfl)
          (hrotate choices choice [] rfl) hearlier

end Budget

/-- In every run of verifications and resends of one flow, over any two stores, in which
wrong guesses are counted one after the other and no resend overtakes a count: at most
five codes are compared and found wrong. -/
theorem guess_budget (ports : AuthPorts) (hround : RoundTrips ports) (rawToken : String)
    (store : AuthStore) (choices : List AuthChoice)
    (hflow : ∀ choice ∈ choices, choice.StartsOnFlow rawToken)
    (hturn : System.EveryStep (GuessesInTurn ports store) choices)
    (hrotate : System.EveryStep (RotatesUncounted ports store) choices) :
    (wrongGuesses ports (store.after ports choices) : Int) ≤ maxVerificationAttempts := by
  have hbudget := budgeted_after hround hflow hturn hrotate choices.length (Nat.le_refl _)
  rw [List.take_length] at hbudget
  exact hbudget.wrongGuesses_le


namespace Scenario

/-- Two wrong codes, one after the other. -/
def submittedInTurn : List AuthChoice :=
  submission 0 10 4 "000000" ++ submission 1 20 2 "000001"

/-- Six wrong codes, all compared before one of them is counted. -/
def submittedAtOnce : List AuthChoice :=
  submission 0 10 2 "000000" ++ submission 1 20 2 "000001" ++ submission 2 30 2 "000002" ++
    submission 3 40 2 "000003" ++ submission 4 50 2 "000004" ++ submission 5 60 2 "000005"

end Scenario

/-- Codes that come one after the other stay within the budget. -/
theorem guess_budget_in_turn :
    (wrongGuesses Scenario.authPorts
      (Scenario.registering.after Scenario.authPorts Scenario.submittedInTurn) : Int) ≤
        maxVerificationAttempts :=
  guess_budget Scenario.authPorts Scenario.decode_encode "flow" Scenario.registering
    Scenario.submittedInTurn (by decide +kernel) (by decide +kernel) (by decide +kernel)

/-- Codes that are compared at once get past it. -/
theorem guess_budget_exceeded :
    ¬ (wrongGuesses Scenario.authPorts
      (Scenario.registering.after Scenario.authPorts Scenario.submittedAtOnce) : Int) ≤
        maxVerificationAttempts := by
  decide +kernel

end MuxivoConsole
