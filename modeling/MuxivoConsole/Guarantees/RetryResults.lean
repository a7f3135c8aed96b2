/-
What a retried lifecycle action returns.  A stored result is for good, and so is all of
a connection but its status and the reason of it; what a retry returns follows from
these two, and is the first result except in the cases that the condition names.
-/
import MuxivoConsole.Guarantees.Retries
import MuxivoConsole.Guarantees.RetryKeys
import MuxivoConsole.Interleaving.Turns

namespace MuxivoConsole

open Interleaving Relational

/-- What every later state keeps of a state: each connection up to its status, and each
stored result. -/
structure ResultsKept (before after : Database) : Prop where
  connections : ∀ organizationId connectionId connection,
    before.connectionForOrganization organizationId connectionId = some connection →
      ∃ status reason, after.connectionForOrganization organizationId connectionId =
        some (connection.withStatus status reason)
  results : ∀ organizationId key result,
    before.idempotentLifecycleResult organizationId key = some result →
      after.idempotentLifecycleResult organizationId key = some result

section Keeping

variable {before after : Database}

theorem PlatformConnection.withStatus_self (connection : PlatformConnection) :
    connection.withStatus connection.fields.status connection.fields.statusReason =
      connection :=
  rfl

theorem PlatformConnection.withStatus_withStatus (connection : PlatformConnection)
    (status later : ConnectionStatus) (reason last : Option ConnectionStatusReason) :
    (connection.withStatus status reason).withStatus later last =
      connection.withStatus later last :=
  rfl

theorem ResultsKept.refl (database : Database) : ResultsKept database database :=
  ⟨fun _ _ _ hread => ⟨_, _, hread⟩, fun _ _ _ hread => hread⟩

theorem ResultsKept.trans {first second third : Database} (hfirst : ResultsKept first second)
    (hsecond : ResultsKept second third) : ResultsKept first third := by
  refine ⟨?_, fun _ _ _ hread => hsecond.results _ _ _ (hfirst.results _ _ _ hread)⟩
  intro organizationId connectionId connection hread
  obtain ⟨status, reason, hmiddle⟩ := hfirst.connections _ _ _ hread
  obtain ⟨later, last, hthird⟩ := hsecond.connections _ _ _ hmiddle
  exact ⟨later, last, hthird⟩

theorem statusReasonFromRecord_value (reason : Option ConnectionStatusReason) :
    statusReasonFromRecord (reason.map StrEnum.value) = some reason := by
  cases reason with
  | none => rfl
  | some reason => simp [statusReasonFromRecord]

/-- A row with another status and a reason of the enumeration reads as the connection
with these. -/
theorem connectionFromRecord_withStatus {record : PlatformConnectionRecord}
    {connection : PlatformConnection} (hread : connectionFromRecord record = some connection)
    (status : ConnectionStatus) (reason : Option ConnectionStatusReason) :
    connectionFromRecord { record with
      status := status
      statusReason := reason.map StrEnum.value } =
        some (connection.withStatus status reason) := by
  simp only [connectionFromRecord, Option.bind_eq_bind, Option.bind_eq_some_iff] at hread ⊢
  obtain ⟨platform, hplatform, earlier, _, hmake⟩ := hread
  refine ⟨platform, hplatform, reason, statusReasonFromRecord_value reason, ?_⟩
  have hfields := Validated.make_toOption_eq_some.mp hmake
  apply Validated.make_toOption_eq_some.mpr
  simp only [PlatformConnection.withStatus, hfields]

/-- A stored connection is the one that its organization and identifier select. -/
theorem connectionForOrganization_of_mem {database : Database}
    {row : PlatformConnectionRecord} (hrow : row ∈ database.tables.platformConnections) :
    database.connectionForOrganization row.organizationId row.id = connectionFromRecord row := by
  have hfind : database.tables.platformConnections.find? (fun other =>
      other.organizationId == row.organizationId && other.id == row.id) = some row := by
    apply find?_eq_some database.constraints.connectionId hrow
    · simp
    · intro other _ hother
      simp only [Bool.and_eq_true, beq_iff_eq] at hother
      exact hother.2
  simp only [Database.connectionForOrganization, hfind, Option.bind_eq_bind, Option.bind_some]

/-- What a transaction makes of a connection that could be read. -/
theorem Write.rewriteConnection_reads (write : Write) {row : PlatformConnectionRecord}
    {connection : PlatformConnection} (hread : connectionFromRecord row = some connection) :
    ∃ status reason, connectionFromRecord (write.rewriteConnection row) =
      some (connection.withStatus status reason) := by
  cases write with
  | updateStatus connectionId organizationId status reason idempotency auditEvent =>
      simp only [Write.rewriteConnection]
      split
      · exact ⟨status, reason, connectionFromRecord_withStatus hread status reason⟩
      · exact ⟨_, _, hread⟩
  | _ => exact ⟨_, _, hread⟩

/-- Results are only ever added to the table of results. -/
theorem Write.lifecycleIdempotency_prefix {write : Write}
    (happly : write.apply before = some after) :
    before.tables.lifecycleIdempotency <+: after.tables.lifecycleIdempotency := by
  have hstatements := Write.apply_eq_some.mp happly
  cases write with
  | updateStatus =>
      simp only [statements, Option.ite_none_left_eq_some, Option.some.injEq] at hstatements
      rw [← hstatements.2]
      exact List.prefix_append _ _
  | updateMember | removeMember | updateDeliveryStatus | acceptInvitation | revokeInvitation =>
      simp only [statements, Option.ite_none_left_eq_some, Option.some.injEq] at hstatements
      rw [← hstatements.2]
  | _ =>
      simp only [statements, Option.some.injEq] at hstatements
      rw [← hstatements]

/-- Step lemma: every transaction keeps them. -/
theorem Write.resultsKept {write : Write} (happly : write.apply before = some after) :
    ResultsKept before after := by
  constructor
  · intro organizationId connectionId connection hread
    obtain ⟨row, hrow, rfl, rfl, hparse⟩ := connectionForOrganization_eq_some hread
    obtain ⟨status, reason, hlater⟩ := write.rewriteConnection_reads hparse
    have hkept := connectionForOrganization_of_mem (Write.rewriteConnection_mem happly hrow)
    have horganization : (write.rewriteConnection row).organizationId = row.organizationId := by
      unfold Write.rewriteConnection
      split
      · split <;> rfl
      · rfl
    rw [Write.rewriteConnection_id, horganization] at hkept
    exact ⟨status, reason, hkept.trans hlater⟩
  · intro organizationId key result hread
    obtain ⟨added, hadded⟩ := Write.lifecycleIdempotency_prefix happly
    simp only [Database.idempotentLifecycleResult, Option.bind_eq_bind,
      Option.bind_eq_some_iff] at hread ⊢
    obtain ⟨record, hfind, hrest⟩ := hread
    refine ⟨record, ?_, hrest⟩
    rw [← hadded, List.find?_append, hfind, Option.some_or]

/-- Run lemma, whatever runs. -/
theorem results_kept (ports : Ports) (database : Database) (before rest : List ConsoleChoice) :
    ResultsKept (database.after ports before).world.store
      (database.after ports (before ++ rest)).world.store := by
  have happend : database.after ports (before ++ rest) =
      (database.after ports before).run (Request.program ports) rest :=
    System.run_append database.idle before rest
  rw [happend]
  refine System.stores_induction (P := fun store : Database =>
    ResultsKept (database.after ports before).world.store store) _ (ResultsKept.refl _) ?_ rest
  intro choices choice commit hcommit hearlier
  exact hearlier.trans (Write.resultsKept (System.commit?_eq_some hcommit).2.2)

/-- The same from an instant of the run to its end. -/
theorem results_kept_since (ports : Ports) (database : Database)
    (choices : List ConsoleChoice) (moment : Nat) :
    ResultsKept (database.idle.storeAt (Request.program ports) choices moment)
      (database.after ports choices).world.store := by
  have hkept := results_kept ports database (choices.take moment) (choices.drop moment)
  rwa [List.take_append_drop] at hkept

end Keeping

/-- How a lifecycle action under a key came to its answer: `lookedUp` is the snapshot in
which it looked for the key, `read` the one in which it read the connection. -/
inductive LifecycleAnswered (command : ManagePlatformConnectionLifecycleCommand) (key : String)
    (lookedUp read : Database) (history : ConsoleHistory) : PlatformConnection → Prop
  | replayed {result : PlatformConnectionLifecycleIdempotencyResult}
      {current : PlatformConnection}
      (hquiet : Uncommitted history)
      (hresult : lookedUp.idempotentLifecycleResult command.organizationId key = some result)
      (hcurrent : read.connectionForOrganization command.organizationId command.connectionId =
        some current)
      (hconnection : result.connectionId = command.connectionId)
      (haction : result.action = command.action) :
      LifecycleAnswered command key lookedUp read history (UseCase.replayed current result)
  | unchanged {current : PlatformConnection} (hquiet : Uncommitted history)
      (hresult : lookedUp.idempotentLifecycleResult command.organizationId key = none)
      (hcurrent : read.connectionForOrganization command.organizationId command.connectionId =
        some current)
      (hstatus : current.fields.status = command.action.targetStatus) :
      LifecycleAnswered command key lookedUp read history current
  | written {current : PlatformConnection} {auditEvent : AuditEvent}
      (hresult : lookedUp.idempotentLifecycleResult command.organizationId key = none)
      (hcurrent : read.connectionForOrganization command.organizationId command.connectionId =
        some current)
      (hstatus : current.fields.status ≠ command.action.targetStatus)
      {asked : ConsoleHistory} (hasked : Uncommitted asked)
      (hhistory : history = asked ++ [@Observation.wrote console
        (Write.updateStatus command.connectionId command.organizationId
          command.action.targetStatus (some command.action.statusReason)
          (some (lifecycleRecord command key)) auditEvent) true]) :
      LifecycleAnswered command key lookedUp read history
        (current.withStatus command.action.targetStatus (some command.action.statusReason))

/-- The stores that an execution read, oldest first. -/
def readStores (history : ConsoleHistory) : List Database :=
  (reads history).map Prod.snd

/-- What a lifecycle action under a key promises when it returns. -/
def AnswersUnder (command : ManagePlatformConnectionLifecycleCommand) (key : String)
    (history : ConsoleHistory) (connection : PlatformConnection) : Prop :=
  key.length ≤ 128 ∧ ∃ first second lookedUp read,
    readStores history = [first, second, lookedUp, read] ∧
      LifecycleAnswered command key lookedUp read history connection

section Answers

variable {guard : ConsoleHistory → Action console → Prop} {history : ConsoleHistory}

theorem normalizedIdempotencyKey_short (value : Option String) :
    (UseCase.normalizedIdempotencyKey value).Ensures guard
      (fun after key => after = history ∧ key = retryKey value ∧
        ∀ text, key = some text → text.length ≤ 128) history := by
  unfold UseCase.normalizedIdempotencyKey
  split
  · exact Execution.ensures_pure ⟨rfl, rfl, fun _ htext => nomatch htext⟩
  · rename_i text
    refine Execution.Ensures.ite ?_ ?_
    · intro hempty
      exact Execution.ensures_pure ⟨rfl, by simp [retryKey, hempty], fun _ htext => nomatch htext⟩
    · intro hsolid
      refine Execution.Ensures.ite (fun _ => Execution.ensures_raise) ?_
      intro hlength
      refine Execution.ensures_pure ⟨rfl, by simp [retryKey, hsolid], ?_⟩
      rintro _ ⟨⟩
      exact Nat.le_of_not_lt hlength

/-- An answer after the key was not found. -/
theorem applyLifecycleAction_answers {command : ManagePlatformConnectionLifecycleCommand}
    {key : String} (hkey : retryKey command.idempotencyKey = some key)
    {first second lookedUp : Database} (hreads : readStores history = [first, second, lookedUp])
    (hresult : lookedUp.idempotentLifecycleResult command.organizationId key = none)
    (hquiet : Uncommitted history) :
    (UseCase.applyLifecycleAction command (some key)).Ensures (fun _ _ => True)
      (fun after connection => ∃ read, readStores after = [first, second, lookedUp, read] ∧
        LifecycleAnswered command key lookedUp read after connection) history := by
  unfold UseCase.applyLifecycleAction
  refine Execution.ensures_select.bind ?_
  rintro after₁ current ⟨moment, world, rfl, hcurrent⟩
  have hread : readStores (history ++ [.saw moment world]) =
      [first, second, lookedUp, world.store] := by
    simp only [readStores, reads_append, reads_saw, List.map_append] at hreads ⊢
    rw [hreads]
    rfl
  have hsaw : Uncommitted (history ++ [.saw moment world]) := hquiet.snoc (by simp)
  split
  · exact Execution.ensures_raise
  · rename_i current
    obtain ⟨row, _, horganization, hid, hparse⟩ :=
      connectionForOrganization_eq_some hcurrent.symm
    obtain ⟨hcurrentId, hcurrentOrganization, _⟩ := connectionFromRecord_eq_some hparse
    by_cases hsame : current.fields.status = command.action.targetStatus
    · simp only [hsame, ↓reduceIte]
      exact Execution.ensures_pure
        ⟨world.store, hread, .unchanged hsaw hresult hcurrent.symm hsame⟩
    · simp only [hsame, ↓reduceIte]
      split
      · exact Execution.ensures_raise
      · rename_i updated htransition
        obtain ⟨_, rfl⟩ := PlatformConnection.transitionTo_eq_ok.mp htransition
        refine newIdentifier_ensures.bind ?_
        rintro after₂ auditId rfl
        have hwrite := lifecycleWrite_eq (hcurrentId.trans hid)
          (hcurrentOrganization.trans horganization)
          (UseCase.lifecycleAuditEvent command auditId)
        rw [hkey] at hwrite
        rw [hwrite]
        refine (Execution.ensures_save trivial).bind ?_
        rintro after₃ saved rfl
        split
        · exact Execution.ensures_raise
        · rename_i hsaved
          have htrue : saved = true := by simpa using hsaved
          subst htrue
          refine Execution.ensures_pure ⟨world.store, ?_,
            .written hresult hcurrent.symm hsame (hsaw.snoc (by simp)) rfl⟩
          rw [← hread]
          simp only [readStores, reads_append, reads_drew, reads_wrote, List.append_nil]

theorem managePlatformConnectionLifecycle_answers
    {command : ManagePlatformConnectionLifecycleCommand} {key : String}
    (hkey : retryKey command.idempotencyKey = some key) :
    (UseCase.managePlatformConnectionLifecycle command).Ensures (fun _ _ => True)
      (AnswersUnder command key) [] := by
  unfold UseCase.managePlatformConnectionLifecycle
  refine (authorize_torn _).bind ?_
  intro after₁ decision hdecision
  refine Execution.Ensures.ite (fun _ => Execution.ensures_raise) ?_
  intro hallowed
  obtain ⟨membership, ⟨moment, first, moment', second, row, rfl, _, _⟩, _⟩ :=
    hdecision.2 (by simpa using hallowed)
  refine (normalizedIdempotencyKey_short _).bind ?_
  rintro after₂ _ ⟨rfl, rfl, hshort⟩
  rw [hkey] at hshort ⊢
  have hlength := hshort key rfl
  refine Execution.ensures_select.bind ?_
  rintro after₃ result ⟨moment₃, lookedUp, rfl, hresult⟩
  have hreads : readStores ([] ++ [.saw moment first, .saw moment' second] ++
      [.saw moment₃ lookedUp]) = [first.store, second.store, lookedUp.store] := rfl
  have hquiet : @Uncommitted console ([] ++ [.saw moment first, .saw moment' second] ++
      [.saw moment₃ lookedUp]) := by simp [Uncommitted]
  cases result with
  | none =>
      refine (applyLifecycleAction_answers hkey hreads hresult.symm hquiet).mono ?_
      rintro after connection ⟨read, hread, hanswered⟩
      exact ⟨hlength, _, _, _, read, hread, hanswered⟩
  | some result =>
      refine Execution.ensures_select.bind ?_
      rintro after₄ current ⟨moment₄, world, rfl, hcurrent⟩
      cases current with
      | none => exact Execution.ensures_raise
      | some current =>
          refine Execution.Ensures.ite (fun _ => Execution.ensures_raise) ?_
          intro hfits
          rw [not_or, not_not, not_not] at hfits
          exact Execution.ensures_pure ⟨hlength, _, _, _, _, rfl,
            .replayed (hquiet.snoc (by simp)) hresult.symm hcurrent.symm hfits.1 hfits.2⟩

end Answers

/-- What a lifecycle action under a key answers over a state that it leaves as it is. -/
inductive AnswersIn (command : ManagePlatformConnectionLifecycleCommand) (key : String)
    (store : Database) : PlatformConnection → Prop
  | replayed {result : PlatformConnectionLifecycleIdempotencyResult}
      {current : PlatformConnection}
      (hresult : store.idempotentLifecycleResult command.organizationId key = some result)
      (hcurrent : store.connectionForOrganization command.organizationId
        command.connectionId = some current)
      (hconnection : result.connectionId = command.connectionId)
      (haction : result.action = command.action) :
      AnswersIn command key store (UseCase.replayed current result)
  | unchanged {current : PlatformConnection}
      (hresult : store.idempotentLifecycleResult command.organizationId key = none)
      (hcurrent : store.connectionForOrganization command.organizationId
        command.connectionId = some current)
      (hstatus : current.fields.status = command.action.targetStatus) :
      AnswersIn command key store current

/-- The actor may manage the connections of the organization. -/
def ManagesConnections (store : Database) (actorId organizationId : UUID) : Prop :=
  ∃ membership, store.membership actorId organizationId = some membership ∧
    membership.allows (UseCase.manageConnections actorId organizationId) = true

section Alone

variable {store : Database}

theorem authorize_settles {actorId organizationId : UUID}
    (hmanages : ManagesConnections store actorId organizationId) :
    (UseCase.authorize (UseCase.manageConnections actorId organizationId)).Settles store 2
      (.ok ⟨true⟩) := by
  obtain ⟨membership, hmembership, hallows⟩ := hmanages
  obtain ⟨row, hrow, hread⟩ := Option.bind_eq_some_iff.mp hmembership
  have hget : (UseCase.getMembership actorId organizationId).Settles store 2
      (.ok (some membership)) := by
    unfold UseCase.getMembership
    apply Execution.settles_select_bind
    rw [hrow]
    apply Execution.settles_select_bind
    rw [hread]
    exact Execution.settles_pure _ _
  unfold UseCase.authorize
  change Execution.Settles (I := console) store _ (2 + 0) _
  apply hget.bind
  rw [← hallows]
  exact Execution.settles_pure _ _

theorem normalizedIdempotencyKey_settles {value : Option String} {key : String}
    (hkey : retryKey value = some key) (hshort : key.length ≤ 128) :
    (UseCase.normalizedIdempotencyKey value).Settles store 0 (.ok (some key)) := by
  cases value with
  | none => cases hkey
  | some text =>
      simp only [retryKey, Option.bind_some, Option.ite_none_left_eq_some,
        Option.some.injEq] at hkey
      obtain ⟨hsolid, rfl⟩ := hkey
      simp only [UseCase.normalizedIdempotencyKey, hsolid, ↓reduceIte,
        Nat.not_lt_of_le hshort]
      exact Execution.settles_pure _ _

/-- With the database for itself, an action that finds its answer reads it. -/
theorem AnswersIn.settles {command : ManagePlatformConnectionLifecycleCommand} {key : String}
    {connection : PlatformConnection} (hanswers : AnswersIn command key store connection)
    (hkey : retryKey command.idempotencyKey = some key) (hshort : key.length ≤ 128)
    (hmanages : ManagesConnections store command.actorId command.organizationId) :
    (UseCase.managePlatformConnectionLifecycle command).Settles store 4 (.ok connection) := by
  unfold UseCase.managePlatformConnectionLifecycle
  change Execution.Settles (I := console) store _ (2 + (0 + 2)) _
  apply (authorize_settles hmanages).bind
  apply (normalizedIdempotencyKey_settles hkey hshort).bind
  apply Execution.settles_select_bind
  cases hanswers with
  | replayed hresult hcurrent hconnection haction =>
      rw [hresult]
      apply Execution.settles_select_bind
      simp only [hcurrent, hconnection, haction, ne_eq, not_true_eq_false, or_self, ↓reduceIte]
      exact Execution.settles_pure _ _
  | unchanged hresult hcurrent hstatus =>
      rw [hresult]
      apply Execution.settles_select_bind
      simp only [hcurrent, hstatus, ↓reduceIte]
      exact Execution.settles_pure _ _

/-- An action alone that has left the database as it was found its answer there. -/
theorem LifecycleAnswered.answersIn {command : ManagePlatformConnectionLifecycleCommand}
    {key : String} {lookedUp read : Database} {history : ConsoleHistory}
    {connection : PlatformConnection}
    (hanswered : LifecycleAnswered command key lookedUp read history connection)
    (hlookedUp : lookedUp ∈ readStores history) (hread : read ∈ readStores history)
    (hreplays : Replays (I := console) store history store) :
    AnswersIn command key store connection := by
  cases hanswered with
  | replayed hquiet hresult hcurrent hconnection haction =>
      have hfirst : lookedUp = store := hreplays.reads_start hquiet lookedUp hlookedUp
      have hsecond : read = store := hreplays.reads_start hquiet read hread
      subst hfirst hsecond
      exact .replayed hresult hcurrent hconnection haction
  | unchanged hquiet hresult hcurrent hstatus =>
      have hfirst : lookedUp = store := hreplays.reads_start hquiet lookedUp hlookedUp
      have hsecond : read = store := hreplays.reads_start hquiet read hread
      subst hfirst hsecond
      exact .unchanged hresult hcurrent hstatus
  | written hresult hcurrent hstatus hasked hhistory =>
      subst hhistory
      obtain ⟨middle, hfirst, next, happly, hlast⟩ := replays_append.mp hreplays
      have hsame := Replays.quiet hfirst hasked
      simp only [Replays] at hlast
      subst hsame hlast
      -- a write under a key leaves one stored result more
      have hstatements := Write.apply_eq_some.mp happly
      simp only [Write.statements, Option.ite_none_left_eq_some, Option.some.injEq,
        Option.toList_some] at hstatements
      have hgrown := congrArg (fun tables : Tables => tables.lifecycleIdempotency.length)
        hstatements.2
      simp at hgrown

end Alone

/-- The stored result is one of this action, and rebuilds the connection. -/
def Rebuilds (command : ManagePlatformConnectionLifecycleCommand)
    (result : PlatformConnectionLifecycleIdempotencyResult)
    (connection : PlatformConnection) : Prop :=
  result.connectionId = command.connectionId ∧ result.action = command.action ∧
    result.resultStatus = connection.fields.status ∧
      result.resultReason = connection.fields.statusReason ∧
        connection.fields.grantedCapabilities = []

/-- When a repetition over `later` gives the result of an action that looked for its key
in `lookedUp` and read the connection in `read`. -/
def RepeatsIn (command : ManagePlatformConnectionLifecycleCommand) (key : String)
    (lookedUp read later : Database) : Prop :=
  match lookedUp.idempotentLifecycleResult command.organizationId key,
      read.connectionForOrganization command.organizationId command.connectionId with
  | some _, _ => True
  | none, none => False
  | none, some current =>
      if current.fields.status = command.action.targetStatus then
        match later.idempotentLifecycleResult command.organizationId key with
        | some result => Rebuilds command result current
        | none =>
            later.connectionForOrganization command.organizationId command.connectionId =
              some current
      else current.fields.grantedCapabilities = []

section Repeating

variable {command : ManagePlatformConnectionLifecycleCommand} {key : String}
  {lookedUp read later : Database}

theorem replayed_eq {current connection : PlatformConnection}
    {result : PlatformConnectionLifecycleIdempotencyResult}
    (hsame : ∃ status reason, current = connection.withStatus status reason) :
    UseCase.replayed current result = connection ↔
      result.resultStatus = connection.fields.status ∧
        result.resultReason = connection.fields.statusReason ∧
          connection.fields.grantedCapabilities = [] := by
  obtain ⟨status, reason, rfl⟩ := hsame
  rw [← Validated.fields_inj]
  obtain ⟨fields, haccepted⟩ := connection
  cases fields
  simp only [UseCase.replayed, PlatformConnection.withStatus, PlatformConnectionFields.mk.injEq,
    true_and]
  rw [eq_comm (a := [])]

theorem answersIn_of_result {result : PlatformConnectionLifecycleIdempotencyResult}
    {current connection : PlatformConnection}
    (hresult : later.idempotentLifecycleResult command.organizationId key = some result)
    (hcurrent : later.connectionForOrganization command.organizationId command.connectionId =
      some current) :
    AnswersIn command key later connection ↔ result.connectionId = command.connectionId ∧
      result.action = command.action ∧ UseCase.replayed current result = connection := by
  constructor
  · intro hanswers
    cases hanswers with
    | replayed hfound hread hconnection haction =>
        rw [hresult, Option.some.injEq] at hfound
        rw [hcurrent, Option.some.injEq] at hread
        subst hfound hread
        exact ⟨hconnection, haction, rfl⟩
    | unchanged hfound =>
        rw [hresult] at hfound
        cases hfound
  · rintro ⟨hconnection, haction, rfl⟩
    exact .replayed hresult hcurrent hconnection haction

theorem answersIn_of_none {connection : PlatformConnection}
    (hresult : later.idempotentLifecycleResult command.organizationId key = none) :
    AnswersIn command key later connection ↔
      later.connectionForOrganization command.organizationId command.connectionId =
        some connection ∧ connection.fields.status = command.action.targetStatus := by
  constructor
  · intro hanswers
    cases hanswers with
    | replayed hfound =>
        rw [hresult] at hfound
        cases hfound
    | unchanged _ hcurrent hstatus => exact ⟨hcurrent, hstatus⟩
  · rintro ⟨hcurrent, hstatus⟩
    exact .unchanged hresult hcurrent hstatus

/-- The result that a lifecycle action stores under its key. -/
def storedResult (command : ManagePlatformConnectionLifecycleCommand) :
    PlatformConnectionLifecycleIdempotencyResult where
  organizationId := command.organizationId
  connectionId := command.connectionId
  action := command.action
  resultStatus := command.action.targetStatus
  resultReason := some command.action.statusReason

/-- The second answer over a later state against the first one. -/
theorem LifecycleAnswered.repeats_iff {history : ConsoleHistory}
    {connection : PlatformConnection}
    (hanswered : LifecycleAnswered command key lookedUp read history connection)
    (hlookedUp : ResultsKept lookedUp later) (hread : ResultsKept read later)
    (hstored : ∀ auditEvent, @Observation.wrote console (Write.updateStatus
        command.connectionId command.organizationId command.action.targetStatus
          (some command.action.statusReason) (some (lifecycleRecord command key)) auditEvent)
            true ∈ history →
      later.idempotentLifecycleResult command.organizationId key =
        some (storedResult command)) :
    AnswersIn command key later connection ↔ RepeatsIn command key lookedUp read later := by
  cases hanswered with
  | @replayed result current hquiet hresult hcurrent hconnection haction =>
      obtain ⟨status, reason, hlater⟩ := hread.connections _ _ _ hcurrent
      have hkept := hlookedUp.results _ _ _ hresult
      rw [answersIn_of_result hkept hlater]
      simp only [RepeatsIn, hresult, iff_true]
      exact ⟨hconnection, haction, rfl⟩
  | unchanged hquiet hresult hcurrent hstatus =>
      obtain ⟨status, reason, hlater⟩ := hread.connections _ _ _ hcurrent
      simp only [RepeatsIn, hresult, hcurrent, hstatus, ↓reduceIte]
      cases hnow : later.idempotentLifecycleResult command.organizationId key with
      | none =>
          rw [answersIn_of_none hnow]
          exact and_iff_left hstatus
      | some result =>
          rw [answersIn_of_result hnow hlater, replayed_eq ⟨status, reason, rfl⟩]
          rfl
  | @written current auditEvent hresult hcurrent hstatus asked hasked hhistory =>
      obtain ⟨status, reason, hlater⟩ := hread.connections _ _ _ hcurrent
      subst hhistory
      have hnow := hstored auditEvent (List.mem_append_right _ List.mem_cons_self)
      have hsame : ∃ status' reason', current.withStatus status reason =
          (current.withStatus command.action.targetStatus
            (some command.action.statusReason)).withStatus status' reason' :=
        ⟨status, reason, rfl⟩
      rw [answersIn_of_result hnow hlater, replayed_eq hsame]
      simp only [RepeatsIn, hresult, hcurrent, hstatus, ↓reduceIte]
      simp only [storedResult, PlatformConnection.withStatus, true_and]

end Repeating

/-- The execution is this lifecycle action, under this key, and returned the connection. -/
structure ReturnedUnder (system : ConsoleSystem) (process : ConsoleProcess)
    (command : ManagePlatformConnectionLifecycleCommand) (key : String)
    (connection : PlatformConnection) : Prop where
  member : process ∈ system.processes
  request : process.request = .managePlatformConnectionLifecycle command
  key : retryKey command.idempotencyKey = some key
  returned : process.execution = .done (.ok (.connection connection))

/-- Two requests for one action on one connection under one key. -/
structure SameAction (first second : ManagePlatformConnectionLifecycleCommand) : Prop where
  organizationId : second.organizationId = first.organizationId
  connectionId : second.connectionId = first.connectionId
  action : second.action = first.action
  key : retryKey second.idempotencyKey = retryKey first.idempotencyKey

theorem SameAction.symm {first second : ManagePlatformConnectionLifecycleCommand}
    (hsame : SameAction first second) : SameAction second first :=
  ⟨hsame.organizationId.symm, hsame.connectionId.symm, hsame.action.symm, hsame.key.symm⟩

theorem SameAction.answersIn {first second : ManagePlatformConnectionLifecycleCommand}
    (hsame : SameAction first second) {key : String} {store : Database}
    {connection : PlatformConnection} (hanswers : AnswersIn first key store connection) :
    AnswersIn second key store connection := by
  obtain ⟨horganization, hid, hact, _⟩ := hsame
  cases hanswers with
  | replayed hresult hcurrent hconnection haction =>
      rw [← horganization] at hresult hcurrent
      rw [← hid] at hcurrent hconnection
      rw [← hact] at haction
      exact .replayed hresult hcurrent hconnection haction
  | unchanged hresult hcurrent hstatus =>
      rw [← horganization] at hresult hcurrent
      rw [← hid] at hcurrent
      rw [← hact] at hstatus
      exact .unchanged hresult hcurrent hstatus

/-- A request that runs alone from here, with these replies. -/
def alone (ports : Ports) (system : ConsoleSystem) (request : Request)
    (replies : List (Reply console)) : ConsoleSystem :=
  system.run (Request.program ports)
    (.start request :: System.turns system.processes.length replies)

/-- The request, alone from here, returns the connection and changes nothing. -/
def RepeatsAlone (ports : Ports) (system : ConsoleSystem)
    (command : ManagePlatformConnectionLifecycleCommand) (replies : List (Reply console))
    (connection : PlatformConnection) : Prop :=
  (∃ last, (alone ports system (.managePlatformConnectionLifecycle command)
      replies).processes[system.processes.length]? = some last ∧
    last.execution = .done (.ok (.connection connection))) ∧
  (alone ports system (.managePlatformConnectionLifecycle command) replies).world.store =
    system.world.store

/-- The condition over what the first execution read. -/
def RepeatsResult (command : ManagePlatformConnectionLifecycleCommand) (key : String)
    (history : ConsoleHistory) (later : Database) : Prop :=
  ∃ first second lookedUp read, readStores history = [first, second, lookedUp, read] ∧
    RepeatsIn command key lookedUp read later

section Runs

variable {ports : Ports} {database : Database} {choices : List ConsoleChoice}

theorem managePlatformConnectionLifecycle_meets
    {command : ManagePlatformConnectionLifecycleCommand} {key : String}
    (hkey : retryKey command.idempotencyKey = some key) :
    ((Request.managePlatformConnectionLifecycle command).program ports).Meets
      (fun _ _ => True)
      (fun history outcome => ∀ connection, outcome = .ok (.connection connection) →
        AnswersUnder command key history connection) [] := by
  refine (returning_ensures (managePlatformConnectionLifecycle_answers hkey)).meets.mono
    (fun _ _ hguard => hguard) ?_
  intro history outcome hpost connection hconnection
  obtain ⟨value, hvalue, hanswers⟩ := hpost _ hconnection
  cases hvalue
  exact hanswers

/-- What an execution read is kept to the end of the run. -/
theorem readStores_kept {process : ConsoleProcess}
    (hprocess : process ∈ (database.after ports choices).processes) {store : Database}
    (hstore : store ∈ readStores process.history) :
    ResultsKept store (database.after ports choices).world.store := by
  obtain ⟨⟨moment, past⟩, hread, rfl⟩ := List.mem_map.mp hstore
  obtain ⟨_, hpast⟩ := read_storeAt choices process hprocess moment past hread
  rw [hpast]
  exact results_kept_since ports database choices moment

/-- The result of a saved action is stored for good. -/
theorem stored_result {process : ConsoleProcess}
    (hprocess : process ∈ (database.after ports choices).processes)
    {command : ManagePlatformConnectionLifecycleCommand} {key : String}
    {auditEvent : AuditEvent}
    (hwrote : @Observation.wrote console (Write.updateStatus command.connectionId
      command.organizationId command.action.targetStatus (some command.action.statusReason)
        (some (lifecycleRecord command key)) auditEvent) true ∈ process.history) :
    (database.after ports choices).world.store.idempotentLifecycleResult
      command.organizationId key = some (storedResult command) := by
  obtain ⟨before, choice, rest, commit, hsplit, hcommit, hwrite⟩ :=
    System.wrote_committed choices process hprocess _ hwrote
  have happly := (System.commit?_eq_some hcommit).2.2
  have hstore : (database.after ports (before ++ [choice])).world.store = commit.after := by
    have hstep := @System.step_store_of_commit console _ _ _ _ (Request.program ports)
      (database.after ports before) choice commit hcommit
    have hsnoc : database.after ports (before ++ [choice]) =
        (database.after ports before).step (Request.program ports) choice :=
      System.run_snoc database.idle before choice
    rw [hsnoc, hstep]
  have hkept := results_kept ports database (before ++ [choice]) rest
  rw [List.append_assoc, List.singleton_append, ← hsplit, hstore] at hkept
  apply hkept.results
  rw [hwrite] at happly
  have hstatements := Write.apply_eq_some.mp happly
  simp only [Write.statements, Option.ite_none_left_eq_some, Option.some.injEq,
    Option.toList_some] at hstatements
  have hmem : lifecycleRecord command key ∈ commit.after.tables.lifecycleIdempotency := by
    rw [← hstatements.2]
    exact List.mem_append_right _ List.mem_cons_self
  have hfind : commit.after.tables.lifecycleIdempotency.find? (fun row =>
      row.organizationId == command.organizationId && row.idempotencyKey == key) =
        some (lifecycleRecord command key) := by
    apply find?_eq_some commit.after.constraints.lifecycleKey hmem
    · simp [lifecycleRecord]
    · intro other _ hother
      simp only [Bool.and_eq_true, beq_iff_eq] at hother
      rw [hother.1, hother.2]
      rfl
  have hreason := statusReasonFromRecord_value (some command.action.statusReason)
  simp only [Option.map_some] at hreason
  simp only [Database.idempotentLifecycleResult, hfind, lifecycleRecord, hreason,
    Option.bind_eq_bind, Option.bind_some, Option.pure_def, storedResult]

/-- Alone, an action answers as the database has it, or changes it. -/
theorem repeatsAlone_iff {system : ConsoleSystem}
    {command : ManagePlatformConnectionLifecycleCommand} {key : String}
    (hkey : retryKey command.idempotencyKey = some key) (hshort : key.length ≤ 128)
    (hmanages : ManagesConnections system.world.store command.actorId command.organizationId)
    {replies : List (Reply console)} (hreplies : 4 ≤ replies.length)
    {connection : PlatformConnection} :
    RepeatsAlone ports system command replies connection ↔
      AnswersIn command key system.world.store connection := by
  constructor
  · rintro ⟨⟨last, hlast, hdone⟩, hsame⟩
    obtain ⟨process, hprocess, hpost, hreplays⟩ := system.alone_solo
      (@managePlatformConnectionLifecycle_meets ports _ _ hkey) replies
    change (alone ports system _ replies).processes[_]? = some process at hprocess
    rw [hlast, Option.some.injEq] at hprocess
    subst hprocess
    obtain ⟨_, first, second, lookedUp, read, hreads, hanswered⟩ := hpost _ hdone _ rfl
    change Replays (I := console) _ _ (alone ports system _ replies).world.store at hreplays
    rw [hsame] at hreplays
    apply hanswered.answersIn _ _ hreplays <;> simp [hreads]
  · intro hanswers
    have hsettles : ((Request.managePlatformConnectionLifecycle command).program
        ports).Settles (I := console) system.world.store 4
          (.ok (.connection connection)) := by
      change Execution.Settles (I := console) _ (UseCase.returning _ _) (4 + 0) _
      unfold UseCase.returning
      exact (hanswers.settles hkey hshort hmanages).bind (Execution.settles_pure _ 0)
    obtain ⟨last, hlast, hdone, hworld⟩ := system.alone_settle hsettles hreplies
    exact ⟨⟨last, hlast, hdone⟩, congrArg World.store hworld⟩

end Runs

/-- In every run over any database: once a lifecycle action under a key has returned a
connection, its repetition by an actor who may manage connections returns the same and
changes nothing, exactly when the first was a replay itself, or changed a connection
without capabilities, or changed nothing and the connection is as it was. -/
theorem lifecycle_retry_repeats_iff (ports : Ports) (database : Database)
    (choices : List ConsoleChoice) (process : ConsoleProcess)
    (first second : ManagePlatformConnectionLifecycleCommand) (key : String)
    (connection : PlatformConnection) (replies : List (Reply console))
    (hfirst : ReturnedUnder (database.after ports choices) process first key connection)
    (hsame : SameAction first second)
    (hmanages : ManagesConnections (database.after ports choices).world.store
      second.actorId second.organizationId)
    (hreplies : 4 ≤ replies.length) :
    RepeatsAlone ports (database.after ports choices) second replies connection ↔
      RepeatsResult first key process.history (database.after ports choices).world.store := by
  have hmeets := @managePlatformConnectionLifecycle_meets ports _ _ hfirst.key
  rw [← hfirst.request] at hmeets
  obtain ⟨hshort, one, two, lookedUp, read, hreads, hanswered⟩ :=
    finished_meets hfirst.member hmeets hfirst.returned connection rfl
  have hlookedUp : ResultsKept lookedUp (database.after ports choices).world.store :=
    readStores_kept hfirst.member (by simp [hreads])
  have hread : ResultsKept read (database.after ports choices).world.store :=
    readStores_kept hfirst.member (by simp [hreads])
  rw [repeatsAlone_iff (hsame.key.trans hfirst.key) hshort hmanages hreplies]
  have hanswersIn : AnswersIn second key (database.after ports choices).world.store
      connection ↔ AnswersIn first key (database.after ports choices).world.store
        connection :=
    ⟨hsame.symm.answersIn, hsame.answersIn⟩
  rw [hanswersIn, hanswered.repeats_iff hlookedUp hread
    (fun _ hwrote => stored_result hfirst.member hwrote)]
  constructor
  · intro hrepeats
    exact ⟨one, two, lookedUp, read, hreads, hrepeats⟩
  · rintro ⟨_, _, _, _, hother, hrepeats⟩
    rw [hreads] at hother
    cases hother
    exact hrepeats

/-- The connection that the execution has returned. -/
def returnedConnection (process : ConsoleProcess) : Option PlatformConnection :=
  match process.execution.outcome? with
  | some (.ok (.connection connection)) => some connection
  | _ => none

theorem returnedConnection_eq_some {process : ConsoleProcess}
    {connection : PlatformConnection} :
    returnedConnection process = some connection ↔
      process.execution = .done (.ok (.connection connection)) := by
  unfold returnedConnection
  constructor
  · intro hreturned
    split at hreturned
    · rename_i other hdone
      cases hreturned
      exact Execution.outcome?_eq_some.mp hdone
    · cases hreturned
  · intro hdone
    rw [Execution.outcome?_eq_some.mpr hdone]

namespace Scenario

/-- An organization with its owner and an active connection that may read its guild. -/
def capable : Database where
  tables := {
    users := [⟨1, .active, "owner"⟩]
    organizations := [⟨2, "organization", "organization"⟩]
    organizationMemberships := [⟨3, 2, 1, .owner⟩]
    platformConnections := [⟨4, 2, "discord", "guild", .active, none,
      some [("discord.guild.read", true)]⟩] }
  constraints := by decide

/-- The owner revokes the connection under a key. -/
def revocation : ManagePlatformConnectionLifecycleCommand :=
  ⟨1, 2, 4, .revoke, 5, some "key"⟩

/-- The revocation runs as a whole. -/
def revoked : List ConsoleChoice :=
  [.start (.managePlatformConnectionLifecycle revocation)] ++ turns 0 10 6

/-- Replies for the turns of the repetition. -/
def replies : List (Reply console) :=
  [reply healthy 20, reply healthy 21, reply healthy 22, reply healthy 23]

end Scenario

theorem lifecycle_retry_repeats_plain : ∃ process connection,
    ReturnedUnder ((Scenario.withConnection .active).after Scenario.ports Scenario.revoked)
        process Scenario.revocation "key" connection ∧
      (RepeatsAlone Scenario.ports ((Scenario.withConnection .active).after Scenario.ports
          Scenario.revoked) Scenario.revocation Scenario.replies connection ↔
        RepeatsResult Scenario.revocation "key" process.history
          ((Scenario.withConnection .active).after Scenario.ports
            Scenario.revoked).world.store) := by
  have hreturned : ∃ process ∈ ((Scenario.withConnection .active).after Scenario.ports
      Scenario.revoked).processes, process.request =
        .managePlatformConnectionLifecycle Scenario.revocation ∧
          (returnedConnection process).isSome = true := by decide +kernel
  obtain ⟨process, hmember, hrequest, hsome⟩ := hreturned
  obtain ⟨connection, hconnection⟩ := Option.isSome_iff_exists.mp hsome
  have hfirst : ReturnedUnder ((Scenario.withConnection .active).after Scenario.ports
      Scenario.revoked) process Scenario.revocation "key" connection :=
    ⟨hmember, hrequest, by decide, returnedConnection_eq_some.mp hconnection⟩
  have hmanages : ∃ membership ∈ ((Scenario.withConnection .active).after Scenario.ports
      Scenario.revoked).world.store.membership 1 2,
        membership.allows (UseCase.manageConnections 1 2) = true := by decide +kernel
  exact ⟨process, connection, hfirst, lifecycle_retry_repeats_iff _ _ _ _ _ _ _ _ _ hfirst
    ⟨rfl, rfl, rfl, rfl⟩ hmanages (by decide)⟩

/-- The connection had capabilities when it was revoked, and the retry returns none. -/
theorem lifecycle_retry_loses_capabilities : ∃ process connection,
    ReturnedUnder (Scenario.capable.after Scenario.ports Scenario.revoked) process
        Scenario.revocation "key" connection ∧
      SameAction Scenario.revocation Scenario.revocation ∧
      ManagesConnections (Scenario.capable.after Scenario.ports
        Scenario.revoked).world.store 1 2 ∧
      ¬ RepeatsAlone Scenario.ports (Scenario.capable.after Scenario.ports Scenario.revoked)
        Scenario.revocation Scenario.replies connection := by
  have hreturned : ∃ process ∈ (Scenario.capable.after Scenario.ports
      Scenario.revoked).processes, process.request =
        .managePlatformConnectionLifecycle Scenario.revocation ∧
          ∃ connection ∈ returnedConnection process,
            connection.fields.grantedCapabilities ≠ [] := by decide +kernel
  obtain ⟨process, hmember, hrequest, connection, hconnection, hcapable⟩ := hreturned
  have hmanages : ∃ membership ∈ (Scenario.capable.after Scenario.ports
      Scenario.revoked).world.store.membership 1 2,
        membership.allows (UseCase.manageConnections 1 2) = true := by decide +kernel
  refine ⟨process, connection, ⟨hmember, hrequest, by decide,
    returnedConnection_eq_some.mp hconnection⟩, ⟨rfl, rfl, rfl, rfl⟩, hmanages, ?_⟩
  rintro ⟨⟨last, hlast, hdone⟩, _⟩
  have hempty : ∀ process ∈ (alone Scenario.ports (Scenario.capable.after Scenario.ports
      Scenario.revoked) (.managePlatformConnectionLifecycle Scenario.revocation)
        Scenario.replies).processes[1]?, ∀ connection ∈ returnedConnection process,
          connection.fields.grantedCapabilities = [] := by decide +kernel
  exact hcapable (hempty last hlast connection (returnedConnection_eq_some.mpr hdone))

end MuxivoConsole
