/-
The connection use cases and the platform updates ask only for writes and
platform calls that they may ask for, and what a lifecycle action has done
when it returns.
-/
import MuxivoConsole.Guarantees.Reads

namespace MuxivoConsole

open Interleaving

variable {ports : Ports} {history : ConsoleHistory}

theorem connectionForOrganization_eq_some {database : Database}
    {organizationId connectionId : UUID} {connection : PlatformConnection}
    (hread : database.connectionForOrganization organizationId connectionId =
      some connection) :
    ∃ row ∈ database.tables.platformConnections, row.organizationId = organizationId ∧
      row.id = connectionId ∧ connectionFromRecord row = some connection := by
  simp only [Database.connectionForOrganization, Option.bind_eq_bind,
    Option.bind_eq_some_iff] at hread
  obtain ⟨row, hfind, hparse⟩ := hread
  have hfound := List.find?_some hfind
  simp only [Bool.and_eq_true, beq_iff_eq] at hfound
  exact ⟨row, List.mem_of_find?_eq_some hfind, hfound.1, hfound.2, hparse⟩

theorem connectPlatformConnection_ensures (command : ConnectPlatformConnectionCommand) :
    (UseCase.connectPlatformConnection command).Ensures
      (Justified ports (.connectPlatformConnection command)) (fun _ _ => True) history := by
  unfold UseCase.connectPlatformConnection
  refine (authorize_ensures _).bind ?_
  rintro after₁ decision -
  split
  · exact Execution.ensures_raise
  · refine (ask_ensures (by simp)).bind ?_
    rintro after₂ answer -
    refine (orRaise_ensures _).bind ?_
    rintro after₃ verified -
    split
    · exact Execution.ensures_raise
    · refine newIdentifier_ensures.bind ?_
      rintro after₄ id -
      refine (orValueError_ensures _).bind ?_
      rintro after₅ connection ⟨-, hmake⟩
      have hconnection := Validated.make_eq_ok.mp hmake
      refine newIdentifier_ensures.bind ?_
      rintro after₆ auditId -
      refine (Execution.ensures_save (Justified.connect ⟨?_, ?_, ?_, ?_⟩)).bind ?_
      · simp only [hconnection]
      · simp only [hconnection]
      · simp only [hconnection]
      · simp only [hconnection]
      · rintro after₇ created -
        split
        · exact Execution.ensures_raise
        · exact Execution.ensures_pure trivial

/-- The ways in which a lifecycle action returns a connection: it answers a
retry from the stored result, it finds nothing to change, or it has written. -/
inductive LifecycleReturned (command : ManagePlatformConnectionLifecycleCommand)
    (before after : ConsoleHistory) : Prop
  | replayed (hquiet : Quiet before after) {row : PlatformConnectionRecord}
      (hsaw : SawConnection after row) (hid : row.id = command.connectionId)
      (horganization : row.organizationId = command.organizationId)
      {record : PlatformConnectionLifecycleIdempotencyRecord}
      (hrecord : Saw after Tables.lifecycleIdempotency record)
      (htenant : record.organizationId = command.organizationId)
      (hkey : some record.idempotencyKey = retryKey command.idempotencyKey)
  | unchanged (hquiet : Quiet before after) {row : PlatformConnectionRecord}
      (hsaw : SawConnection after row) (hid : row.id = command.connectionId)
      (horganization : row.organizationId = command.organizationId)
      (hstatus : row.status = command.action.targetStatus)
  | written {asked : ConsoleHistory} {auditEvent : AuditEvent} (hquiet : Quiet before asked)
      (hafter : after = asked ++ [@Observation.wrote console
        (Write.updateStatus command.connectionId command.organizationId
          command.action.targetStatus (some command.action.statusReason)
          ((retryKey command.idempotencyKey).map (lifecycleRecord command)) auditEvent) true])

theorem normalizedIdempotencyKey_ensures {guard : ConsoleHistory → Action console → Prop}
    (value : Option String) :
    (UseCase.normalizedIdempotencyKey value).Ensures guard
      (fun after key => after = history ∧ key = retryKey value) history := by
  unfold UseCase.normalizedIdempotencyKey
  split
  · exact Execution.ensures_pure ⟨rfl, rfl⟩
  · rename_i text
    refine Execution.Ensures.ite ?_ ?_
    · intro hempty
      exact Execution.ensures_pure ⟨rfl, by simp [retryKey, hempty]⟩
    · intro hsolid
      refine Execution.Ensures.ite (fun _ => Execution.ensures_raise) ?_
      intro _
      exact Execution.ensures_pure ⟨rfl, by simp [retryKey, hsolid]⟩

/-- The write of a lifecycle action, from the connection as it was read. -/
theorem lifecycleWrite_eq {command : ManagePlatformConnectionLifecycleCommand}
    {current : PlatformConnection} (hid : current.fields.id = command.connectionId)
    (horganization : current.fields.organizationId = command.organizationId)
    (auditEvent : AuditEvent) :
    UseCase.updateStatus
        (current.withStatus command.action.targetStatus (some command.action.statusReason))
        auditEvent (retryKey command.idempotencyKey)
        ((retryKey command.idempotencyKey).map fun _ => command.action) =
      UseCase.save (Write.updateStatus command.connectionId command.organizationId
        command.action.targetStatus (some command.action.statusReason)
        ((retryKey command.idempotencyKey).map (lifecycleRecord command)) auditEvent) := by
  unfold UseCase.updateStatus
  cases retryKey command.idempotencyKey with
  | none => simp only [PlatformConnection.withStatus, hid, horganization, Option.map_none]
  | some key =>
      simp only [PlatformConnection.withStatus, hid, horganization, Option.map_some,
        lifecycleRecord]

/-- The part after the retry key: `before` is where the whole action began. -/
theorem applyLifecycleAction_ensures {command : ManagePlatformConnectionLifecycleCommand}
    {before : ConsoleHistory} (hbefore : Quiet before history)
    (hauthority : ∃ membership,
      SawTornMembership history command.actorId command.organizationId membership ∧
        membership.allows
          (UseCase.manageConnections command.actorId command.organizationId) = true) :
    (UseCase.applyLifecycleAction command (retryKey command.idempotencyKey)).Ensures
      (Justified ports (.managePlatformConnectionLifecycle command))
      (fun after connection => connection.fields.id = command.connectionId ∧
        LifecycleReturned command before after) history := by
  unfold UseCase.applyLifecycleAction
  refine Execution.ensures_select.bind ?_
  rintro after₁ current ⟨moment, world, rfl, hcurrent⟩
  split
  · exact Execution.ensures_raise
  · rename_i current
    obtain ⟨row, hrow, horganization, hid, hparse⟩ :=
      connectionForOrganization_eq_some hcurrent.symm
    obtain ⟨hcurrentId, hcurrentOrganization, _, _, hcurrentStatus, _⟩ :=
      connectionFromRecord_eq_some hparse
    have hread : Quiet history (history ++ [.saw moment world]) := Quiet.saw _ _ _
    have hsaw : SawConnection (history ++ [.saw moment world]) row :=
      ⟨world, mem_recent_saw _ _ _, hrow⟩
    by_cases hsame : current.fields.status = command.action.targetStatus
    · simp only [hsame, ↓reduceIte]
      refine Execution.ensures_pure ⟨hcurrentId.trans hid, ?_⟩
      exact .unchanged (hbefore.trans hread) hsaw hid horganization
        (hcurrentStatus.symm.trans hsame)
    · simp only [hsame, ↓reduceIte]
      split
      · exact Execution.ensures_raise
      · rename_i updated htransition
        obtain ⟨hallowed, rfl⟩ := PlatformConnection.transitionTo_eq_ok.mp htransition
        refine newIdentifier_ensures.bind ?_
        rintro after₂ auditId rfl
        have hdrew : Quiet history (history ++ [.saw moment world] ++ [.drew auditId]) :=
          hread.trans (Quiet.drew _ _)
        obtain ⟨membership, hmembership, hallows⟩ := hauthority
        have hmay : MayChange command
            (history ++ [.saw moment world] ++ [.drew auditId]) :=
          ⟨⟨membership, hmembership.mono hdrew, hallows⟩,
            row, hsaw.mono (@Quiet.drew console _ auditId), hid, horganization,
            hcurrentStatus ▸ hallowed⟩
        rw [lifecycleWrite_eq (hcurrentId.trans hid)
          (hcurrentOrganization.trans horganization)]
        refine (Execution.ensures_save (Justified.change hmay)).bind ?_
        rintro after₃ saved rfl
        split
        · exact Execution.ensures_raise
        · rename_i hsaved
          have htrue : saved = true := by simpa using hsaved
          refine Execution.ensures_pure ⟨hcurrentId.trans hid, ?_⟩
          rw [htrue]
          exact .written (hbefore.trans hdrew) rfl

theorem idempotentLifecycleResult_eq_some {database : Database} {organizationId : UUID}
    {key : String} {result : PlatformConnectionLifecycleIdempotencyResult}
    (hread : database.idempotentLifecycleResult organizationId key = some result) :
    ∃ record ∈ database.tables.lifecycleIdempotency,
      record.organizationId = organizationId ∧ record.idempotencyKey = key := by
  simp only [Database.idempotentLifecycleResult, Option.bind_eq_bind,
    Option.bind_eq_some_iff] at hread
  obtain ⟨record, hfind, _⟩ := hread
  have hfound := List.find?_some hfind
  simp only [Bool.and_eq_true, beq_iff_eq] at hfound
  exact ⟨record, List.mem_of_find?_eq_some hfind, hfound.1, hfound.2⟩

theorem managePlatformConnectionLifecycle_ensures
    (command : ManagePlatformConnectionLifecycleCommand) :
    (UseCase.managePlatformConnectionLifecycle command).Ensures
      (Justified ports (.managePlatformConnectionLifecycle command))
      (fun after connection => connection.fields.id = command.connectionId ∧
        LifecycleReturned command history after) history := by
  unfold UseCase.managePlatformConnectionLifecycle
  refine (authorize_ensures _).bind ?_
  intro after₁ decision hdecision
  obtain ⟨hauthorized, hauthority⟩ := hdecision
  refine Execution.Ensures.ite (fun _ => Execution.ensures_raise) ?_
  intro hallowed
  have hmember := hauthority (by simpa using hallowed)
  refine (normalizedIdempotencyKey_ensures _).bind ?_
  rintro after₂ key ⟨rfl, rfl⟩
  have hmiss :=
    @applyLifecycleAction_ensures ports after₂ command history hauthorized hmember
  cases hkey : retryKey command.idempotencyKey with
  | none =>
      rw [hkey] at hmiss
      exact hmiss
  | some key =>
      refine Execution.ensures_select.bind ?_
      rintro after₃ result ⟨moment, world, rfl, hresult⟩
      have hlooked : Quiet after₂ (after₂ ++ [.saw moment world]) := Quiet.saw _ _ _
      cases result with
      | none =>
          obtain ⟨membership, hmembership, hallows⟩ := hmember
          have happly := @applyLifecycleAction_ensures ports _ command history
            (hauthorized.trans hlooked) ⟨membership, hmembership.mono hlooked, hallows⟩
          rw [hkey] at happly
          exact happly
      | some result =>
          obtain ⟨record, hrecord, htenant, hrecordKey⟩ :=
            idempotentLifecycleResult_eq_some hresult.symm
          refine Execution.ensures_select.bind ?_
          rintro after₄ current ⟨moment', world', rfl, hcurrent⟩
          cases current with
          | none => exact Execution.ensures_raise
          | some current =>
              obtain ⟨row, hrow, horganization, hid, hparse⟩ :=
                connectionForOrganization_eq_some hcurrent.symm
              have hcurrentId := (connectionFromRecord_eq_some hparse).1
              refine Execution.Ensures.ite (fun _ => Execution.ensures_raise) ?_
              intro _
              refine Execution.ensures_pure ⟨hcurrentId.trans hid, ?_⟩
              refine .replayed (hauthorized.trans (hlooked.trans (Quiet.saw _ _ _)))
                ⟨world', mem_recent_saw _ _ _, hrow⟩ hid horganization
                ⟨world, (Quiet.saw _ _ _).recent (mem_recent_saw _ _ _), hrecord⟩ htenant ?_
              rw [hrecordKey, hkey]

/-- The gate of the platform updates: what it leaves seen is what the writer
port may be called on. -/
theorem usableConnection_ensures (actorId organizationId connectionId : UUID)
    (payloadPlatform : Option Platform) (denied : String)
    {guard : ConsoleHistory → Action console → Prop} :
    (UseCase.usableConnection actorId organizationId connectionId payloadPlatform
      denied).Ensures guard
      (fun after connection => MayUpdatePlatform after organizationId actorId
        connection.fields.externalResourceId) history := by
  unfold UseCase.usableConnection
  refine (authorize_ensures _).bind ?_
  intro after₁ decision hdecision
  obtain ⟨_, hauthority⟩ := hdecision
  refine Execution.Ensures.ite (fun _ => Execution.ensures_raise) ?_
  intro hallowed
  obtain ⟨membership, hmembership, hallows⟩ := hauthority (by simpa using hallowed)
  obtain ⟨row, hrow, huser, horganization, _, hrole, _⟩ := hmembership.row
  -- no role but the owner's supports managing control modules
  have howner : row.role = .owner := by
    obtain ⟨_, _, howner | ⟨hsupports, _⟩⟩ := OrganizationMembership.allows_iff.mp hallows
    · exact hrole.symm.trans howner
    · simp [UseCase.manageControlModules, OrganizationRole.supportsPair] at hsupports
  refine Execution.ensures_select.bind ?_
  rintro after₂ connection ⟨moment, world, rfl, hconnection⟩
  cases connection with
  | none => exact Execution.ensures_raise
  | some connection =>
      obtain ⟨stored, hstored, htenant, _, hparse⟩ :=
        connectionForOrganization_eq_some hconnection.symm
      obtain ⟨_, _, hplatform, hexternal, hstatus, _⟩ := connectionFromRecord_eq_some hparse
      refine Execution.Ensures.ite (fun _ => Execution.ensures_raise) ?_
      intro husable
      simp only [ne_eq, not_or, not_not] at husable
      refine Execution.ensures_pure ⟨?_, ?_⟩
      · exact ⟨row, hrow.mono (Quiet.saw _ _ _), huser, horganization, howner⟩
      · refine ⟨stored, ⟨world, mem_recent_saw _ _ _, hstored⟩, htenant, ?_, hexternal.symm,
          ?_⟩
        · rw [← hplatform, husable.1]
        · rw [← hstatus, husable.2.2]

theorem recordPolicyAudit_ensures (command : UpdatePlatformAiModerationPolicyCommand)
    (result : AuditResult) :
    (UseCase.recordPolicyAudit command result).Ensures
      (Justified ports (.updatePlatformAiModerationPolicy command)) (fun _ _ => True)
      history := by
  unfold UseCase.recordPolicyAudit
  refine newIdentifier_ensures.bind ?_
  intro after₁ id _
  refine (Execution.ensures_save Justified.audit).bind ?_
  intro after₂ recorded _
  exact Execution.Ensures.ite (fun _ => Execution.ensures_raise)
    fun _ => Execution.ensures_pure trivial

theorem updatePlatformAiModerationPolicy_ensures
    (command : UpdatePlatformAiModerationPolicyCommand) :
    (UseCase.updatePlatformAiModerationPolicy command).Ensures
      (Justified ports (.updatePlatformAiModerationPolicy command)) (fun _ _ => True)
      history := by
  unfold UseCase.updatePlatformAiModerationPolicy
  have hrecent : (UseCase.requireRecentAuthentication command.principal).Ensures
      (Justified ports (.updatePlatformAiModerationPolicy command)) (fun _ _ => True)
      history := by
    unfold UseCase.requireRecentAuthentication
    refine (ask_ensures (by simp)).bind ?_
    intro after (instant : Instant) _
    split
    · exact Execution.Ensures.ite (fun _ => Execution.ensures_raise)
        fun _ => Execution.ensures_pure trivial
    · exact Execution.ensures_raise
  refine hrecent.bind ?_
  intro after₁ _ _
  refine (usableConnection_ensures _ _ _ _ _).bind ?_
  intro after₂ connection hmay
  refine (Execution.ensures_ask (Justified.updatePlatform rfl hmay)).bind ?_
  intro after₃ answer _
  cases answer with
  | error failure =>
      refine (recordPolicyAudit_ensures command .failed).bind ?_
      intro after₄ _ _
      exact Execution.ensures_raise
  | ok summary =>
      refine (recordPolicyAudit_ensures command .succeeded).bind ?_
      intro after₄ _ _
      exact Execution.ensures_pure trivial

theorem updatePlatformChannelPurpose_ensures
    (command : UpdatePlatformChannelPurposeCommand) :
    (UseCase.updatePlatformChannelPurpose command).Ensures
      (Justified ports (.updatePlatformChannelPurpose command)) (fun _ _ => True)
      history := by
  unfold UseCase.updatePlatformChannelPurpose
  refine (usableConnection_ensures _ _ _ _ _).bind ?_
  intro after₁ connection hmay
  refine (Execution.ensures_ask (Justified.updatePlatform rfl hmay)).bind ?_
  intro after₂ answer _
  exact (orRaise_ensures _).mono fun _ _ _ => trivial

theorem updatePlatformWelcomeSettings_ensures
    (command : UpdatePlatformWelcomeSettingsCommand) :
    (UseCase.updatePlatformWelcomeSettings command).Ensures
      (Justified ports (.updatePlatformWelcomeSettings command)) (fun _ _ => True)
      history := by
  unfold UseCase.updatePlatformWelcomeSettings
  refine (usableConnection_ensures _ _ _ _ _).bind ?_
  intro after₁ connection hmay
  refine (Execution.ensures_ask (Justified.updatePlatform rfl hmay)).bind ?_
  intro after₂ answer _
  exact (orRaise_ensures _).mono fun _ _ _ => trivial

section Reconciliation

/-- A write of the reconciler to the state of one connection. -/
def ChangesOnly (connectionId : UUID) (write : Write) : Prop :=
  ∃ organizationId status reason auditEvent,
    write = .updateStatus connectionId organizationId status reason none auditEvent

/-- Working on one connection leaves the others untouched. -/
theorem ListedAndUntouched.append {connection : PlatformConnection} {connectionId : UUID}
    (hlisted : ListedAndUntouched history connection)
    (hother : connectionId ≠ connection.fields.id) {added : ConsoleHistory}
    (hadded : ∀ write : Write, @Observation.wrote console write true ∈ added →
      ChangesOnly connectionId write) :
    ListedAndUntouched (history ++ added) connection := by
  obtain ⟨earlier, moment, later, world, row, rfl, hrow, hparse, hlater⟩ := hlisted
  refine ⟨earlier, moment, later ++ added, world, row, ?_, hrow, hparse, ?_⟩
  · rw [List.append_assoc, List.cons_append]
  · intro write hwrite
    rcases List.mem_append.mp hwrite with hwrite | hwrite
    · exact hlater write hwrite
    · obtain ⟨organizationId, status, reason, auditEvent, heq⟩ := hadded write hwrite
      exact ⟨connectionId, organizationId, status, reason, auditEvent, heq, hother⟩

/-- Nothing is written while a decision is sought or when it is turned down. -/
theorem changesNothing_heard {connection : PlatformConnection} {correlationId : UUID}
    {answer : Except Failure ConnectionReconciliationDecision} :
    ∀ write : Write, @Observation.wrote console write true ∈
        [@Observation.heard console (Call.inspectConnection connection correlationId) answer] →
      ChangesOnly connection.fields.id write := by
  intro write hwrite
  simp at hwrite

theorem applyDecision_ensures {command : ReconcilePlatformConnectionsCommand}
    {connection : PlatformConnection} {decision : ConnectionReconciliationDecision}
    {answer : Except Failure ConnectionReconciliationDecision}
    (hlisted : ListedAndUntouched history connection) (hdecides : Decides answer decision) :
    (UseCase.applyDecision command connection decision).Ensures
      (Justified ports (.reconcilePlatformConnections command))
      (fun after _ => ∃ added, after = history ++ added ∧
        ∀ write : Write, @Observation.wrote console write true ∈ added →
          ChangesOnly connection.fields.id write)
      (history ++ [@Observation.heard console
        (Call.inspectConnection connection command.correlationId) answer]) := by
  unfold UseCase.applyDecision
  refine Execution.Ensures.ite ?_ ?_
  · exact fun _ => Execution.ensures_pure ⟨_, rfl, changesNothing_heard⟩
  intro _
  refine Execution.Ensures.ite ?_ ?_
  · exact fun _ => Execution.ensures_pure ⟨_, rfl, changesNothing_heard⟩
  intro _
  split
  · exact Execution.ensures_pure ⟨_, rfl, changesNothing_heard⟩
  · rename_i updated htransition
    obtain ⟨hallowed, rfl⟩ := PlatformConnection.transitionTo_eq_ok.mp htransition
    refine newIdentifier_ensures.bind ?_
    rintro after₁ auditId rfl
    have hmay : MayReconcile command (history ++ [@Observation.heard console
        (Call.inspectConnection connection command.correlationId) answer] ++
          [.drew auditId]) connection decision := by
      refine ⟨?_, ⟨history, auditId, answer, by simp, hdecides⟩, hallowed⟩
      obtain ⟨earlier, moment, later, world, row, rfl, hrow, hparse, hlater⟩ := hlisted
      refine ⟨earlier, moment, later ++ [@Observation.heard console
        (Call.inspectConnection connection command.correlationId) answer] ++
          [.drew auditId], world, row, by simp, hrow, hparse, ?_⟩
      intro write hwrite
      simp only [List.mem_append, List.mem_singleton, reduceCtorEq, or_false] at hwrite
      exact hlater write hwrite
    refine (Execution.ensures_save (Justified.reconcile hmay)).mono ?_
    rintro after₂ saved rfl
    refine ⟨[@Observation.heard console
      (Call.inspectConnection connection command.correlationId) answer] ++
        ([.drew auditId] ++ [_]), by rw [List.append_assoc, List.append_assoc], ?_⟩
    intro write hwrite
    simp only [List.mem_append, List.mem_singleton, reduceCtorEq, false_or] at hwrite
    injection hwrite with hwrite
    exact ⟨_, _, _, _, hwrite⟩

theorem reconcileConnection_ensures {command : ReconcilePlatformConnectionsCommand}
    {connection : PlatformConnection} (hlisted : ListedAndUntouched history connection) :
    (UseCase.reconcileConnection ports command connection).Ensures
      (Justified ports (.reconcilePlatformConnections command))
      (fun after _ => ∃ added, after = history ++ added ∧
        ∀ write : Write, @Observation.wrote console write true ∈ added →
          ChangesOnly connection.fields.id write) history := by
  unfold UseCase.reconcileConnection
  refine Execution.Ensures.ite ?_ ?_
  · exact fun _ => Execution.ensures_pure ⟨[], by simp, by simp⟩
  intro _
  refine (ask_ensures (by simp)).bind ?_
  rintro after₁ (answer : Except Failure ConnectionReconciliationDecision) rfl
  cases answer with
  | ok decision => exact applyDecision_ensures hlisted (Or.inl rfl)
  | error failure =>
      refine Execution.Ensures.ite ?_ (fun _ => Execution.ensures_raise)
      intro hunavailable
      refine applyDecision_ensures hlisted (Or.inr ⟨rfl, failure.message, ?_⟩)
      rw [← hunavailable]

/-- Loop lemma: the induction is on the connections still to do, and each of
them stays untouched until its turn. -/
theorem reconcileConnections_ensures {command : ReconcilePlatformConnectionsCommand}
    (connections : List PlatformConnection) (result : ReconcilePlatformConnectionsResult)
    (hdistinct : (connections.map (·.fields.id)).Nodup)
    (hlisted : ∀ connection ∈ connections, ListedAndUntouched history connection) :
    (UseCase.reconcileConnections ports command connections result).Ensures
      (Justified ports (.reconcilePlatformConnections command)) (fun _ _ => True)
      history := by
  induction connections generalizing history result with
  | nil => exact Execution.ensures_pure trivial
  | cons connection rest ih =>
      obtain ⟨hfirst, hrest⟩ := List.nodup_cons.mp hdistinct
      unfold UseCase.reconcileConnections
      refine (reconcileConnection_ensures (hlisted connection List.mem_cons_self)).bind ?_
      rintro after₁ reconciled ⟨added, rfl, hadded⟩
      refine ih _ hrest ?_
      intro other hother
      refine (hlisted other (List.mem_cons_of_mem _ hother)).append ?_ hadded
      intro hsame
      exact hfirst (List.mem_map.mpr ⟨other, hother, hsame.symm⟩)

theorem mem_reconcilableConnections {database : Database} {limit : Nat}
    {connection : PlatformConnection}
    (hmem : connection ∈ database.reconcilableConnections limit) :
    ∃ row ∈ database.tables.platformConnections,
      connectionFromRecord row = some connection := by
  simp only [Database.reconcilableConnections, List.mem_filterMap] at hmem
  obtain ⟨row, hrow, hparse⟩ := hmem
  have hsorted := List.mem_of_mem_take hrow
  rw [List.mem_insertionSort, List.mem_filter] at hsorted
  exact ⟨row, hsorted.1, hparse⟩

/-- No connection is listed twice. -/
theorem reconcilableConnections_distinct (database : Database) (limit : Nat) :
    ((database.reconcilableConnections limit).map (·.fields.id)).Nodup := by
  have hrows : ((((database.tables.platformConnections.filter
      (·.status != .disconnected)).insertionSort fun first second =>
        first.id.int ≤ second.id.int).take limit).map PlatformConnectionRecord.id).Nodup := by
    have hkeys := database.constraints.connectionId
    have hfiltered := (List.filter_sublist
      (p := fun row : PlatformConnectionRecord => row.status != .disconnected)
      (l := database.tables.platformConnections)).map PlatformConnectionRecord.id
    have hsorted := (List.perm_insertionSort (fun first second => first.id.int ≤ second.id.int)
      (database.tables.platformConnections.filter (·.status != .disconnected))).map
        PlatformConnectionRecord.id
    have hnodup := hsorted.nodup_iff.mpr (List.Nodup.sublist hfiltered hkeys)
    exact hnodup.sublist ((List.take_sublist _ _).map _)
  unfold Database.reconcilableConnections
  generalize ((database.tables.platformConnections.filter
    (·.status != .disconnected)).insertionSort fun first second =>
      first.id.int ≤ second.id.int).take limit = rows at hrows
  induction rows with
  | nil => simp
  | cons row rows ih =>
      obtain ⟨hrow, hrest⟩ := List.nodup_cons.mp hrows
      rw [List.filterMap_cons]
      cases hparse : connectionFromRecord row with
      | none => exact ih hrest
      | some connection =>
          refine List.nodup_cons.mpr ⟨?_, ih hrest⟩
          intro hmem
          obtain ⟨other, hother, hsame⟩ := List.mem_map.mp hmem
          obtain ⟨source, hsource, hread⟩ := List.mem_filterMap.mp hother
          have hid := (connectionFromRecord_eq_some hparse).1
          have hotherId := (connectionFromRecord_eq_some hread).1
          refine hrow (List.mem_map.mpr ⟨source, hsource, ?_⟩)
          rw [← hotherId, ← hid]
          exact hsame

theorem reconcilePlatformConnections_ensures
    (command : ReconcilePlatformConnectionsCommand) :
    (UseCase.reconcilePlatformConnections ports command).Ensures
      (Justified ports (.reconcilePlatformConnections command)) (fun _ _ => True)
      history := by
  unfold UseCase.reconcilePlatformConnections
  refine Execution.ensures_select.bind ?_
  rintro after₁ connections ⟨moment, world, rfl, rfl⟩
  refine reconcileConnections_ensures _ _ (reconcilableConnections_distinct _ _) ?_
  intro connection hconnection
  obtain ⟨row, hrow, hparse⟩ := mem_reconcilableConnections hconnection
  exact ⟨history, moment, [], world, row, rfl, hrow, hparse, by simp⟩

end Reconciliation

end MuxivoConsole
