/-
A recovery token that was not delivered: whichever step of the request failed, before or
after its effect, no completion with the token does anything.
-/
import MuxivoConsole.Application.RecoveryDelivery
import MuxivoConsole.Guarantees.FinishedFlows
import MuxivoConsole.Guarantees.Recovery
import MuxivoConsole.Interleaving.Alone
import MuxivoConsole.Interleaving.Idle

namespace MuxivoConsole

open Interleaving Relational

/-- What became of the commands to Redis, in order. -/
def deliveries (inputs : List (Input auth)) : List Delivery :=
  inputs.filterMap fun input =>
    match input with
    | .heard .connectRedis delivery => some delivery
    | _ => none

theorem deliveries_append (first second : List (Input auth)) :
    deliveries (first ++ second) = deliveries first ++ deliveries second :=
  List.filterMap_append

/-- The request issued this token, its cleanup did not fail, and the notifier did not return
normally.  The first command to Redis stores the token, every other one is the cleanup. -/
structure Undelivered (ports : AuthPorts) (storing creating : StepOutcome)
    (command : RequestPasswordRecoveryCommand) (rawToken : String) (store : AuthStore)
    (inputs : List (Input auth)) (outcome : Except Failure Unit) (after : AuthStore) : Prop where
  runs : (AuthUseCase.requestPasswordRecoveryFaring ports storing creating command).Runs store
    inputs outcome after
  issued : inputs.head? = some (@Input.heard auth (.console .issueToken) rawToken)
  cleanup : ∀ delivery ∈ (deliveries inputs).tail, delivery = .answered
  silent : ∀ userId recipientEmail token expiresAt correlationId,
    @Input.heard auth (.sendRecovery userId recipientEmail token expiresAt correlationId)
      (.ok ()) ∉ inputs

/-- Nothing waits for the token in one of the two stores. -/
def DeadToken (ports : AuthPorts) (rawToken : String) (store : AuthStore) : Prop :=
  store.tokens.get (recoveryKey (ports.hashToken rawToken)) = none ∨
    store.waiting (ports.hashToken rawToken) = 0

/-- A value that was put can be read right away. -/
theorem RedisOneTimeTokenStore.get_put_self {server : RedisServer} {key value : String}
    {ttlSeconds : Int} (hput : (RedisOneTimeTokenStore.put server key value ttlSeconds).2 = true) :
    (RedisOneTimeTokenStore.put server key value ttlSeconds).1.get key = some value := by
  have hreplaced := RedisOneTimeTokenStore.get_replace server key value ttlSeconds
  by_cases htaken : (server.get key).isSome = true
  · simp [RedisOneTimeTokenStore.put, RedisServer.setExNx, htaken] at hput
  · simp only [RedisOneTimeTokenStore.put, RedisServer.setExNx, if_neg htaken]
    exact hreplaced

section Request

open AuthUseCase

variable {store after : AuthStore} {inputs : List (Input auth)} {key value : String}
variable {storing creating : StepOutcome}

theorem putToken_runs {ttlSeconds : Int} {outcome : Except Failure (Except Failure Bool)}
    (hruns : (putToken key value ttlSeconds).Runs store inputs outcome after) :
    ∃ answer, outcome = .ok answer ∧ after.database = store.database ∧
      (deliveries inputs).length = 1 ∧
        (answer = .ok true → after.tokens.get key = some value) := by
  obtain ⟨delivery, rest, rfl, hruns⟩ := hruns
  cases delivery with
  | answered =>
      obtain ⟨rfl, rfl, rfl⟩ := hruns
      refine ⟨_, rfl, rfl, rfl, ?_⟩
      intro hanswer
      have hput : (RedisOneTimeTokenStore.put store.tokens key value ttlSeconds).2 = true := by
        have hreceipt := Except.ok.inj hanswer
        simpa [AuthWrite.receipt] using hreceipt
      exact RedisOneTimeTokenStore.get_put_self hput
  | lostOnTheWay =>
      obtain ⟨rfl, rfl, rfl⟩ := hruns
      exact ⟨_, rfl, rfl, rfl, fun hanswer => by cases hanswer⟩
  | answerLost =>
      obtain ⟨rfl, rfl, rfl⟩ := hruns
      exact ⟨_, rfl, rfl, rfl, fun hanswer => by cases hanswer⟩

theorem fallible_putToken_runs {ttlSeconds : Int}
    {outcome : Except Failure (Except Failure Bool)}
    (hruns : (fallible storing (putToken key value ttlSeconds)).Runs store inputs outcome
      after) :
    ∃ answer, outcome = .ok answer ∧ after.database = store.database ∧
      (answer = .ok true → (deliveries inputs).length = 1 ∧
        after.tokens.get key = some value) := by
  have hcarried : ∀ {answer : Except Failure Bool}, answer ≠ .ok true →
      ((putToken key value ttlSeconds) >>= fun _ =>
        (pure answer : AuthUseCase (Except Failure Bool))).Runs store inputs outcome after →
      ∃ answer, outcome = .ok answer ∧ after.database = store.database ∧
        (answer = .ok true → (deliveries inputs).length = 1 ∧
          after.tokens.get key = some value) := by
    intro answer hanswer hboth
    rcases Execution.runs_bind.mp hboth with
      ⟨first, second, middle, stored, rfl, hfirst, rfl, rfl, rfl⟩ | ⟨error, herror, _⟩
    · obtain ⟨_, _, hdatabase, _⟩ := putToken_runs hfirst
      exact ⟨answer, rfl, hdatabase, fun htrue => absurd htrue hanswer⟩
    · obtain ⟨_, houtcome, _⟩ := putToken_runs herror
      cases houtcome
  cases storing with
  | completes =>
      obtain ⟨answer, houtcome, hdatabase, hdeliveries, hget⟩ := putToken_runs hruns
      exact ⟨answer, houtcome, hdatabase, fun htrue => ⟨hdeliveries, hget htrue⟩⟩
  | answersFalse carriedOut =>
      cases carriedOut with
      | true => exact hcarried (by simp) hruns
      | false =>
          obtain ⟨rfl, rfl, rfl⟩ := hruns
          exact ⟨_, rfl, rfl, fun htrue => by cases htrue⟩
  | raises carriedOut failure =>
      cases carriedOut with
      | true => exact hcarried (by simp) hruns
      | false =>
          obtain ⟨rfl, rfl, rfl⟩ := hruns
          exact ⟨_, rfl, rfl, fun htrue => by cases htrue⟩

theorem createRecoveryTransaction_runs {transaction : PasswordRecoveryTransaction}
    {auditEvent : AuditEvent} {outcome : Except Failure (Except Failure Bool)}
    (hruns : (createRecoveryTransaction transaction auditEvent).Runs store inputs outcome
      after) :
    inputs = [] ∧ (∃ answer, outcome = .ok answer) ∧ after.tokens = store.tokens := by
  replace hruns := Execution.runs_transact_bind.mp hruns
  split at hruns
  · obtain ⟨rfl, rfl, rfl⟩ := hruns
    exact ⟨rfl, ⟨_, rfl⟩, rfl⟩
  · rename_i created happly
    obtain ⟨rfl, rfl, rfl⟩ := hruns
    simp only [AuthWrite.apply, Option.map_eq_some_iff] at happly
    obtain ⟨database, _, rfl⟩ := happly
    exact ⟨rfl, ⟨_, rfl⟩, rfl⟩

theorem fallible_createRecovery_runs {transaction : PasswordRecoveryTransaction}
    {auditEvent : AuditEvent} {outcome : Except Failure (Except Failure Bool)}
    (hruns : (fallible creating (createRecoveryTransaction transaction auditEvent)).Runs store
      inputs outcome after) :
    inputs = [] ∧ (∃ answer, outcome = .ok answer) ∧ after.tokens = store.tokens := by
  have hcarried : ∀ {answer : Except Failure Bool},
      ((createRecoveryTransaction transaction auditEvent) >>= fun _ =>
        (pure answer : AuthUseCase (Except Failure Bool))).Runs store inputs outcome after →
      inputs = [] ∧ (∃ answer, outcome = .ok answer) ∧ after.tokens = store.tokens := by
    intro answer hboth
    rcases Execution.runs_bind.mp hboth with
      ⟨first, second, middle, created, rfl, hfirst, rfl, rfl, rfl⟩ | ⟨error, herror, _⟩
    · obtain ⟨rfl, _, htokens⟩ := createRecoveryTransaction_runs hfirst
      exact ⟨rfl, ⟨_, rfl⟩, htokens⟩
    · obtain ⟨_, ⟨_, houtcome⟩, _⟩ := createRecoveryTransaction_runs herror
      cases houtcome
  cases creating with
  | completes => exact createRecoveryTransaction_runs hruns
  | answersFalse carriedOut =>
      cases carriedOut with
      | true => exact hcarried hruns
      | false =>
          obtain ⟨rfl, rfl, rfl⟩ := hruns
          exact ⟨rfl, ⟨_, rfl⟩, rfl⟩
  | raises carriedOut failure =>
      cases carriedOut with
      | true => exact hcarried hruns
      | false =>
          obtain ⟨rfl, rfl, rfl⟩ := hruns
          exact ⟨rfl, ⟨_, rfl⟩, rfl⟩

theorem discardToken_runs {outcome : Except Failure Unit}
    (hruns : (discardToken key value).Runs store inputs outcome after)
    (hanswered : ∀ delivery ∈ deliveries inputs, delivery = .answered)
    (hget : store.tokens.get key = some value) : after.tokens.get key = none := by
  obtain ⟨delivery, rest, rfl, hruns⟩ := hruns
  have hdelivery : delivery = .answered := hanswered delivery List.mem_cons_self
  subst hdelivery
  obtain ⟨rfl, rfl, rfl⟩ := hruns
  exact RedisOneTimeTokenStore.get_consume_self hget

/-- After the token was stored: as long as the notifier does not return normally, the token
is discarded. -/
theorem createAndSend_runs {transaction : PasswordRecoveryTransaction} {auditEvent : AuditEvent}
    {userId : UUID} {recipientEmail rawToken : String} {correlationId : UUID}
    {outcome : Except Failure Unit}
    (hruns : (createAndSend creating transaction auditEvent key userId recipientEmail rawToken
      correlationId).Runs store inputs outcome after)
    (hanswered : ∀ delivery ∈ deliveries inputs, delivery = .answered)
    (hsilent : @Input.heard auth (.sendRecovery userId recipientEmail rawToken
      transaction.fields.expiresAt correlationId) (.ok ()) ∉ inputs)
    (hget : store.tokens.get key = some transaction.fields.id.str) :
    after.tokens.get key = none := by
  rcases Execution.runs_bind.mp hruns with
    ⟨first, second, middle, answer, rfl, hfirst, hsecond⟩ | ⟨error, herror, _⟩
  · obtain ⟨rfl, _, htokens⟩ := fallible_createRecovery_runs hfirst
    rw [← htokens] at hget
    cases answer with
    | error failure =>
        rcases Execution.runs_bind.mp hsecond with
          ⟨told, rest, cleaned, _, rfl, hdiscard, rfl, _, rfl⟩ | ⟨error, hdiscard, _⟩
        · exact discardToken_runs hdiscard (by simpa using hanswered) hget
        · exact discardToken_runs hdiscard hanswered hget
    | ok created =>
        cases created with
        | false => exact discardToken_runs hsecond hanswered hget
        | true =>
            obtain ⟨sent, rest, rfl, hrest⟩ := hsecond
            cases sent with
            | ok _ => exact absurd List.mem_cons_self hsilent
            | error failure => exact discardToken_runs hrest hanswered hget
  · obtain ⟨_, ⟨_, houtcome⟩, _⟩ := fallible_createRecovery_runs herror
    cases houtcome

theorem orValueError_runs {α : Type} {result : Except String α} {outcome : Except Failure α}
    (hruns : (AuthUseCase.orValueError result).Runs store inputs outcome after) :
    inputs = [] ∧ after = store := by
  cases result with
  | ok value => exact ⟨hruns.1, hruns.2.2⟩
  | error message => exact ⟨hruns.1, hruns.2.2⟩

theorem orRaise_runs {α : Type} {result outcome : Except Failure α}
    (hruns : (orRaise result).Runs store inputs outcome after) :
    inputs = [] ∧ after = store ∧ ∀ value, outcome = .ok value → result = .ok value := by
  cases result with
  | ok value => exact ⟨hruns.1, hruns.2.2, fun other hother => hother ▸ hruns.2.1.symm⟩
  | error failure => exact ⟨hruns.1, hruns.2.2, fun other hother => hother ▸ hruns.2.1.symm⟩

/-- Whatever step failed, and before or after its effect: nothing waits for the token in the
token store, or else the database is as it was. -/
theorem Undelivered.dead {ports : AuthPorts} {command : RequestPasswordRecoveryCommand}
    {rawToken : String} {outcome : Except Failure Unit}
    (hundelivered : Undelivered ports storing creating command rawToken store inputs outcome
      after)
    (hfresh : store.waiting (ports.hashToken rawToken) = 0) : DeadToken ports rawToken after := by
  have hwaiting : ∀ {found : AuthStore}, found.database = store.database →
      DeadToken ports rawToken found := by
    intro found hdatabase
    right
    rw [AuthStore.waiting, hdatabase]
    exact hfresh
  obtain ⟨hrequest, hissued, hcleanup, hsilent⟩ := hundelivered
  obtain ⟨token, told, rfl, hissues⟩ := Execution.runs_ask_bind.mp hrequest
  have htoken : rawToken = token := by
    cases Option.some.inj hissued
    rfl
  subst htoken
  clear hrequest hissued
  split at hissues
  · obtain ⟨rfl, rfl, rfl⟩ := hissues
    exact hwaiting rfl
  · rename_i normalizedEmail _
    have hreads := Execution.runs_select_bind.mp hissues
    clear hissues
    split at hreads
    · obtain ⟨rfl, rfl, rfl⟩ := hreads
      exact hwaiting rfl
    · rename_i account _
      split at hreads
      · obtain ⟨rfl, rfl, rfl⟩ := hreads
        exact hwaiting rfl
      · obtain ⟨now, inputs, rfl, hdraws⟩ := Execution.runs_ask_bind.mp hreads
        obtain ⟨id, rest, rfl, hbuilds⟩ := Execution.runs_newName_bind.mp hdraws
        clear hreads hdraws
        rcases Execution.runs_bind.mp hbuilds with
          ⟨made, inputs, middle, transaction, rfl, hmade, hstores⟩ | ⟨error, hmade, _⟩
        · obtain ⟨rfl, rfl⟩ := orValueError_runs hmade
          rcases Execution.runs_bind.mp hstores with
            ⟨put, rest, held, answer, rfl, hput, hchecks⟩ | ⟨error, hput, _⟩
          · obtain ⟨_, hanswer, hdatabase, hstored⟩ := fallible_putToken_runs hput
            cases hanswer
            rcases Execution.runs_bind.mp hchecks with
              ⟨raised, inputs, found, stored, rfl, hraise, hcreates⟩ | ⟨error, hraise, _⟩
            · obtain ⟨rfl, rfl, hvalue⟩ := orRaise_runs hraise
              cases stored with
              | false =>
                  obtain ⟨rfl, rfl, rfl⟩ := hcreates
                  exact hwaiting hdatabase
              | true =>
                  obtain ⟨hone, hget⟩ := hstored (hvalue true rfl)
                  left
                  obtain ⟨auditId, rest, rfl, hsends⟩ := Execution.runs_newName_bind.mp hcreates
                  refine createAndSend_runs hsends ?_ ?_ hget
                  · intro delivery hdelivery
                    refine hcleanup delivery ?_
                    obtain ⟨stored, hput⟩ := List.length_eq_one_iff.mp hone
                    have hall : deliveries (Input.heard (I := auth) (.console .issueToken) rawToken ::
                        Input.heard (.console .now) now :: Input.drew id :: ([] ++ (put ++ ([] ++
                          Input.drew auditId :: rest)))) = stored :: deliveries rest := by
                      rw [List.nil_append]
                      change deliveries (put ++ ([] ++ Input.drew auditId :: rest)) = _
                      rw [deliveries_append, hput]
                      rfl
                    rw [hall]
                    exact hdelivery
                  · intro hsent
                    refine hsilent account.fields.userId normalizedEmail rawToken
                      transaction.fields.expiresAt command.correlationId ?_
                    refine List.mem_cons_of_mem _ (List.mem_cons_of_mem _
                      (List.mem_cons_of_mem _ ?_))
                    exact List.mem_append_right _ (List.mem_append_right _
                      (List.mem_append_right _ (List.mem_cons_of_mem _ hsent)))
            · obtain ⟨_, rfl, _⟩ := orRaise_runs hraise
              exact hwaiting hdatabase
          · obtain ⟨_, houtcome, _⟩ := fallible_putToken_runs hput
            cases houtcome
        · obtain ⟨_, rfl⟩ := orValueError_runs hmade
          exact hwaiting rfl

end Request

section Completion

variable {ports : AuthPorts} {rawToken : String}

/-- The request completes a recovery with this token. -/
def CompletesWith (rawToken : String) (request : AuthRequest) : Prop :=
  ∃ command, request = .completePasswordRecovery command ∧ command.token = rawToken

/-- The completion is rejected, or cannot even ask the token store. -/
def Rejected {α : Type} (outcome : Except Failure α) : Prop :=
  outcome = .error ⟨.passwordRecoveryCompletionRejected, "Password recovery failed."⟩ ∨
    outcome = .error AuthUseCase.tokenStoreUnavailable

theorem getToken_idles (stable : AuthStore → Prop) (key : String) :
    (AuthUseCase.getToken key).Idles stable fun outcome =>
      outcome = .ok (.error AuthUseCase.tokenStoreUnavailable) ∨
        ∃ store, stable store ∧ outcome = .ok (.ok (store.tokens.get key)) := by
  intro delivery
  cases delivery with
  | answered => exact fun store hstable => Or.inr ⟨store, hstable, rfl⟩
  | lostOnTheWay => exact Or.inl rfl
  | answerLost => exact Or.inl rfl

/-- Where no completion commits anything for the token, it is rejected: what is left to show
is the part after the token store answered. -/
theorem completePasswordRecovery_idles (command : CompletePasswordRecoveryCommand)
    (stable : AuthStore → Prop)
    (hcompletes : ∀ store, stable store →
      store.tokens.get (recoveryKey (ports.hashToken command.token)) ≠ none →
        ∀ after passwordHash completedAt auditId, stable after →
          ∀ later, (AuthWrite.account (.completeRecovery (ports.hashToken command.token)
            passwordHash completedAt auditId command.correlationId)).apply after = some later →
          later = after ∧ (AccountWrite.block after.database.tables
            (.completeRecovery (ports.hashToken command.token) passwordHash completedAt auditId
              command.correlationId)).2 = none) :
    (AuthUseCase.completePasswordRecovery ports command).Idles stable Rejected := by
  unfold AuthUseCase.completePasswordRecovery
  by_cases husable : isUsableToken command.token = true
  · by_cases hpassword : isValidPassword command.newPassword = true
    · simp only [husable, hpassword, Bool.not_true, Bool.false_eq_true, ↓reduceIte]
      refine (getToken_idles stable _).bind ?_ (by simp)
      rintro answer (hunavailable | ⟨store, hstable, hanswer⟩)
      · cases hunavailable
        exact Or.inr rfl
      · cases hanswer
        cases hget : store.tokens.get (recoveryKey (ports.hashToken command.token)) with
        | none => exact Or.inl rfl
        | some reference =>
            change @Execution.Idles auth Failure Unit stable Rejected
              (if (!ports.isUuid reference) = true then _ else _)
            by_cases hreference : (!ports.isUuid reference) = true
            · rw [if_pos hreference]
              exact Or.inl rfl
            · rw [if_neg hreference]
              intro completedAt passwordHash auditId after hafter
              cases happly : auth.apply (.account (.completeRecovery
                  (ports.hashToken command.token) passwordHash completedAt auditId
                    command.correlationId)) after with
              | none => exact Or.inl rfl
              | some later =>
                  obtain ⟨hsame, hnone⟩ := hcompletes store hstable (by rw [hget]; simp) after
                    passwordHash completedAt auditId hafter later happly
                  refine ⟨hsame, ?_⟩
                  have hreceipt : auth.receipt (.account (.completeRecovery
                      (ports.hashToken command.token) passwordHash completedAt auditId
                        command.correlationId)) after = (none : Option UUID) := hnone
                  rw [hreceipt]
                  exact Or.inl rfl
    · simp only [husable, hpassword, Bool.not_true, Bool.not_false, Bool.false_eq_true,
        ↓reduceIte]
      exact Or.inl rfl
  · simp only [husable, Bool.not_false, ↓reduceIte]
    exact Or.inl rfl

/-- Without a transaction that waits for the token, a completion finds none and changes
nothing. -/
theorem completeRecovery_of_waiting {found later : AuthStore} {tokenHash passwordHash : String}
    {completedAt : Instant} {auditId correlationId : UUID} (hwaiting : found.waiting tokenHash = 0)
    (happly : (AuthWrite.account (.completeRecovery tokenHash passwordHash completedAt auditId
      correlationId)).apply found = some later) :
    later = found ∧ (AccountWrite.block found.database.tables (.completeRecovery tokenHash
      passwordHash completedAt auditId correlationId)).2 = none := by
  have hclosed : ∀ row ∈ found.database.tables.passwordRecoveryTransactions,
      row.openAt tokenHash completedAt = false := by
    intro row hrow
    have hnot := List.countP_eq_zero.mp hwaiting row hrow
    cases hopen : row.openAt tokenHash completedAt with
    | false => rfl
    | true =>
        simp only [PasswordRecoveryTransactionRecord.openAt, Bool.and_eq_true] at hopen
        exact absurd (by simp only [hopen.1.1, hopen.1.2, Bool.and_self]) hnot
  have hfind : found.database.tables.passwordRecoveryTransactions.find?
      (·.openAt tokenHash completedAt) = none := by
    refine List.find?_eq_none.mpr ?_
    intro row hrow
    simp [hclosed row hrow]
  have hcount : rowcount (·.openAt tokenHash completedAt)
      found.database.tables.passwordRecoveryTransactions = 0 := by
    refine List.countP_eq_zero.mpr ?_
    intro row hrow
    simp [hclosed row hrow]
  refine ⟨AuthWrite.unchanged_of_block happly ?_, ?_⟩
  · simp only [AccountWrite.block, hfind]
    rw [update_eq_self hcount]
  · simp only [AccountWrite.block, hfind]

theorem completion_idles {stable : AuthStore → Prop} {request : AuthRequest}
    (hrequest : CompletesWith rawToken request)
    (hcompletes : ∀ command : CompletePasswordRecoveryCommand, command.token = rawToken →
      (AuthUseCase.completePasswordRecovery ports command).Idles stable Rejected) :
    (AuthRequest.program ports request).Idles stable Rejected := by
  obtain ⟨command, rfl, htoken⟩ := hrequest
  refine (hcompletes command htoken).bind ?_ ?_
  · intro value hvalue
    rcases hvalue with hvalue | hvalue <;> cases hvalue
  · intro error herror
    rcases herror with herror | herror
    · cases herror
      exact Or.inl rfl
    · cases herror
      exact Or.inr rfl

/-- The commit brings a value under the key of the token or a transaction for it. -/
def Revives (ports : AuthPorts) (rawToken : String) (found : AuthStore) (commit : AuthCommit) :
    Prop :=
  commit.write.putKey = some (recoveryKey (ports.hashToken rawToken)) ∨
    commit.write.replacedKey = some (recoveryKey (ports.hashToken rawToken)) ∨
      createsRecovery (ports.hashToken rawToken) (found, commit) = true

instance (ports : AuthPorts) (rawToken : String) (found : AuthStore) (commit : AuthCommit) :
    Decidable (Revives ports rawToken found commit) :=
  inferInstanceAs (Decidable (_ ∨ _ ∨ _))

/-- The choice does not bring the token back to life. -/
def RevivesNothing (ports : AuthPorts) (rawToken : String) (system : AuthSystem)
    (choice : AuthChoice) : Prop :=
  ∀ commit ∈ system.commit? choice, ¬ Revives ports rawToken system.world.store commit

instance (ports : AuthPorts) (rawToken : String) (system : AuthSystem) (choice : AuthChoice) :
    Decidable (RevivesNothing ports rawToken system choice) :=
  inferInstanceAs (Decidable (∀ commit ∈ system.commit? choice,
    ¬ Revives ports rawToken system.world.store commit))

section Runs

variable {left : AuthStore} {stable : AuthStore → Prop} {choices : List AuthChoice}

/-- What completions idle on stays as it is if the steps that bring no token back keep it. -/
theorem idling_of_stable (hleft : stable left)
    (hcompletes : ∀ command : CompletePasswordRecoveryCommand, command.token = rawToken →
      (AuthUseCase.completePasswordRecovery ports command).Idles stable Rejected)
    (hkeeps : ∀ before choice commit, (left.after ports before).commit? choice = some commit →
      ¬ Revives ports rawToken (left.after ports before).world.store commit →
        stable (left.after ports before).world.store → stable commit.after)
    (hothers : left.Along ports (RevivesNothing ports rawToken) choices) :
    (left.after ports choices).Idling (CompletesWith rawToken) stable Rejected := by
  have hidle : left.idle.Idling (CompletesWith rawToken) stable Rejected :=
    ⟨hleft, fun process hprocess => by cases hprocess⟩
  refine @System.Idling.run auth _ _ _ _ (AuthRequest.program ports) _ _ _ _
    (fun request hrequest => completion_idles hrequest hcompletes) hidle choices ?_
  intro before choice rest hsplit hstable
  have hstore := @System.step_store auth _ _ _ _ (AuthRequest.program ports)
    (left.after ports before) choice
  rw [← AuthStore.after_snoc] at hstore
  change stable (left.after ports (before ++ [choice])).world.store
  rw [hstore]
  have hspared := (System.along_iff left.idle choices).mp hothers before choice rest hsplit
  cases hcommit : (left.after ports before).commit? choice with
  | none => exact hstable
  | some commit => exact hkeeps before choice commit hcommit (hspared commit hcommit) hstable

theorem idling_of_get
    (hget : left.tokens.get (recoveryKey (ports.hashToken rawToken)) = none)
    (hothers : left.Along ports (RevivesNothing ports rawToken) choices) :
    (left.after ports choices).Idling (CompletesWith rawToken)
      (fun store : AuthStore => store.tokens.get (recoveryKey (ports.hashToken rawToken)) = none)
      Rejected := by
  refine idling_of_stable hget ?_ ?_ hothers
  · rintro completion rfl
    exact completePasswordRecovery_idles completion _ fun found hnone hsome =>
      absurd hnone hsome
  · intro before choice commit hcommit hrevives hnone
    obtain ⟨_, _, happly⟩ := System.commit?_eq_some hcommit
    cases hget : commit.after.tokens.get (recoveryKey (ports.hashToken rawToken)) with
    | none => rfl
    | some value =>
        have hfound := AuthWrite.tokens_get happly (fun hput => hrevives (Or.inl hput))
          (fun hreplace => hrevives (Or.inr (Or.inl hreplace))) hget
        rw [hnone] at hfound
        cases hfound

theorem idling_of_waiting (hwaiting : left.waiting (ports.hashToken rawToken) = 0)
    (hothers : left.Along ports (RevivesNothing ports rawToken) choices) :
    (left.after ports choices).Idling (CompletesWith rawToken)
      (fun store : AuthStore => store.waiting (ports.hashToken rawToken) = 0) Rejected := by
  refine idling_of_stable hwaiting ?_ ?_ hothers
  · rintro completion rfl
    exact completePasswordRecovery_idles completion _ fun found _ _ after passwordHash
      completedAt auditId hafter later happly => completeRecovery_of_waiting hafter happly
  · intro before choice commit hcommit hrevives hnone
    have hstep := waiting_step (ports.hashToken rawToken) hcommit
    have hcreates : createsRecovery (ports.hashToken rawToken)
        ((left.after ports before).world.store, commit) = false := by
      rw [Bool.eq_false_iff]
      exact fun hcreated => hrevives (Or.inr (Or.inr hcreated))
    rw [hcreates, hnone] at hstep
    simp only [Bool.toNat_false] at hstep
    omega

theorem DeadToken.idling (hdead : DeadToken ports rawToken left) :
    ∃ stable : AuthStore → Prop, ∀ choices,
      left.Along ports (RevivesNothing ports rawToken) choices →
        (left.after ports choices).Idling (CompletesWith rawToken) stable Rejected := by
  rcases hdead with hget | hwaiting
  · exact ⟨_, fun choices => idling_of_get hget⟩
  · exact ⟨_, fun choices => idling_of_waiting hwaiting⟩

end Runs

/-- A token that was not delivered is dead: in every run from the stores that its request
left, whatever step of the request failed, every completion with the token leaves both stores
as they are at each of its steps and ends rejected. -/
theorem undelivered_recovery_dead (ports : AuthPorts) (storing creating : StepOutcome)
    (command : RequestPasswordRecoveryCommand) (rawToken : String) (store : AuthStore)
    (inputs : List (Input auth)) (outcome : Except Failure Unit) (left : AuthStore)
    (hundelivered : Undelivered ports storing creating command rawToken store inputs outcome
      left)
    (hfresh : store.waiting (ports.hashToken rawToken) = 0) (choices : List AuthChoice)
    (hothers : left.Along ports (RevivesNothing ports rawToken) choices) :
    (∀ before choice rest, choices = before ++ choice :: rest →
      (left.after ports before).AdvancesIdle (CompletesWith rawToken) choice →
        (left.after ports (before ++ [choice])).world.store =
          (left.after ports before).world.store) ∧
    ∀ process ∈ (left.after ports choices).processes, CompletesWith rawToken process.request →
      ∀ result, process.execution = .done result → Rejected result := by
  obtain ⟨stable, hidling⟩ := (hundelivered.dead hfresh).idling
  refine ⟨?_, ?_⟩
  · intro before choice rest hsplit hadvances
    rw [hsplit] at hothers
    have hbefore := hidling before ((System.along_append left.idle before _).mp hothers).1
    rw [AuthStore.after_snoc]
    exact hbefore.unchanged hadvances
  · intro process hprocess hrequest result hresult
    have hends := (hidling choices hothers).2 process hprocess hrequest
    rw [hresult] at hends
    exact hends

end Completion

namespace Scenario

/-- The stores after the token of a recovery link was put, and nothing else. -/
def putOnly (store : AuthStore) : AuthStore :=
  { store with
    tokens := (RedisOneTimeTokenStore.put store.tokens (recoveryKey (digest "link"))
      (9 : UUID).str recoveryLifetimeSeconds).1 }

/-- The token store answers, but the answer to `put` is lost. -/
def putOnlyInputs : List (Input auth) :=
  [@Input.heard auth (.console .issueToken) "link", @Input.heard auth (.console .now) (0 : Nat),
    .drew 9, @Input.heard auth .connectRedis Delivery.answered]

theorem putOnly_undelivered (store : AuthStore) {account : EmailPasswordAccount}
    (haccount : store.database.accountByEmailLookupHash (address 'a') = some account)
    (hactive : account.fields.status = .active) :
    Undelivered authPorts (.raises true AuthUseCase.tokenStoreUnavailable) .completes
      ⟨address 'a', 6⟩ "link" store putOnlyInputs (.error AuthUseCase.tokenStoreUnavailable)
      (putOnly store) where
  runs := by
    refine Execution.runs_ask_bind.mpr ⟨"link", _, rfl, ?_⟩
    refine Execution.runs_select_bind.mpr ?_
    have hfound : store.database.accountByEmailLookupHash (authPorts.lookupHash (address 'a')) =
        some account := haccount
    rw [hfound]
    dsimp only
    rw [if_neg (by simp [hactive])]
    refine Execution.runs_ask_bind.mpr ⟨(0 : Nat), _, rfl, ?_⟩
    refine Execution.runs_newName_bind.mpr ⟨9, _, rfl, ?_⟩
    have hlength : (authPorts.hashToken "link").length = 64 := by decide +kernel
    have haccepted : PasswordRecoveryTransactionFields.postInit
        { id := 9
          userId := account.fields.userId
          tokenHash := authPorts.hashToken "link"
          expiresAt := 0 + recoveryLifetime } = none := by
      simp [PasswordRecoveryTransactionFields.postInit, hlength]
    rw [Validated.make_of_accepted haccepted]
    exact ⟨Delivery.answered, [], rfl, rfl, rfl, rfl⟩
  issued := rfl
  cleanup := by decide
  silent := by
    intro userId recipientEmail token expiresAt correlationId hheard
    simp only [putOnlyInputs, List.mem_cons, List.not_mem_nil, or_false] at hheard
    rcases hheard with hheard | hheard | hheard | hheard <;> cases hheard

def completion : List AuthChoice :=
  [.start (.completePasswordRecovery ⟨"link", "other-password", 5⟩)] ++ authTurns 0 20 10

/-- The rows that an earlier request for the same token has left. -/
def discardedTables : Tables :=
  { signedUp.database.tables with
    passwordRecoveryTransactions := [⟨5, 1, digest "link", 1000, none⟩] }

theorem discarded_constraints : discardedTables.Constraints := by
  decide +kernel

/-- A transaction of an earlier request for the same token, whose key was discarded. -/
def discarded : AuthStore :=
  { signedUp with database := ⟨discardedTables, discarded_constraints⟩ }

theorem signedUp_account : ∃ account,
    signedUp.database.accountByEmailLookupHash (address 'a') = some account ∧
      account.fields.status = .active :=
  ⟨⟨⟨1, .active, "$argon2id$first-password"⟩, by decide⟩, by decide +kernel, rfl⟩

end Scenario

theorem undelivered_recovery_dead_put :
    (∀ before choice rest, Scenario.completion = before ++ choice :: rest →
      ((Scenario.putOnly Scenario.signedUp).after Scenario.authPorts before).AdvancesIdle
          (CompletesWith "link") choice →
        ((Scenario.putOnly Scenario.signedUp).after Scenario.authPorts
            (before ++ [choice])).world.store =
          ((Scenario.putOnly Scenario.signedUp).after Scenario.authPorts before).world.store) ∧
    ∀ process ∈ ((Scenario.putOnly Scenario.signedUp).after Scenario.authPorts
        Scenario.completion).processes,
      CompletesWith "link" process.request →
        ∀ result, process.execution = .done result → Rejected result := by
  obtain ⟨account, haccount, hactive⟩ := Scenario.signedUp_account
  exact undelivered_recovery_dead Scenario.authPorts _ _ _ "link" Scenario.signedUp _ _ _
    (Scenario.putOnly_undelivered Scenario.signedUp haccount hactive) (by decide +kernel)
    Scenario.completion (by decide +kernel)

/-- If the same token had been issued before and its transaction still waits, a token that
was put and never sent completes that earlier recovery. -/
theorem undelivered_recovery_revived :
    ¬ ∀ (store left : AuthStore) (inputs : List (Input auth)) (outcome : Except Failure Unit),
      Undelivered Scenario.authPorts (.raises true AuthUseCase.tokenStoreUnavailable)
          .completes ⟨Scenario.address 'a', 6⟩ "link" store inputs outcome left →
        store.tokens.get (recoveryKey (Scenario.digest "link")) = none →
          ∀ process ∈ (left.after Scenario.authPorts Scenario.completion).processes,
            CompletesWith "link" process.request →
              ∀ result, process.execution = .done result → Rejected result := by
  intro hdead
  obtain ⟨account, haccount, hactive⟩ := Scenario.signedUp_account
  have hrejected := hdead Scenario.discarded _ _ _
    (Scenario.putOnly_undelivered Scenario.discarded haccount hactive) (by decide +kernel)
  have hrecovered : ∃ process ∈ ((Scenario.putOnly Scenario.discarded).after Scenario.authPorts
      Scenario.completion).processes, process.request =
        .completePasswordRecovery ⟨"link", "other-password", 5⟩ ∧
          process.execution.outcome? = some (.ok .done) := by
    decide +kernel
  obtain ⟨process, hprocess, hrequest, houtcome⟩ := hrecovered
  rcases hrejected process hprocess ⟨_, hrequest, rfl⟩ _
    (Execution.outcome?_eq_some.mp houtcome) with hresult | hresult <;> cases hresult

end MuxivoConsole
