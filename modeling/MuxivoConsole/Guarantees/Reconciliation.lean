/-
One batch of the reconciliation, alone: every connection of it is settled by itself, and
the counters and the audit facts account for it.  And what a sequence of batches reaches.
-/
import MuxivoConsole.Guarantees.Alone
import MuxivoConsole.Guarantees.Revocation

namespace MuxivoConsole

open Interleaving Paging Relational

/-- Status and reason that are stored for a connection. -/
def Database.connectionState (database : Database) (connectionId : UUID) :
    Option (ConnectionStatus × Option String) :=
  (database.tables.platformConnections.find? (·.id == connectionId)).map fun row =>
    (row.status, row.statusReason)

/-- The rows whose status is another one in the later database. -/
def Database.changedRows (database later : Database) : List PlatformConnectionRecord :=
  database.tables.platformConnections.filter fun row =>
    (later.connectionState row.id).map Prod.fst != some row.status

section Settling

variable (ports : Ports) (answers : PlatformConnection → Option ConnectionReconciliationDecision)

/-- What the probe of a connection decides, by an assignment of decisions; `none` is a
`PlatformControlUnavailableError`. -/
def decided (connection : PlatformConnection) : ConnectionReconciliationDecision :=
  (answers connection).getD platformUnreachable

/-- What the decision makes of the connection; `none` leaves it alone. -/
def settled (connection : PlatformConnection) : Option PlatformConnection :=
  if ports.hasProbe connection.fields.platform = true ∧
      connection.fields.status ≠ .disconnected ∧
        (decided answers connection).targetStatus ∈
          allowedTransitions connection.fields.status then
    some (connection.withStatus (decided answers connection).targetStatus
      (some (decided answers connection).reason.statusReason))
  else none

/-- The environment of an execution: probes that answer by the assignment, and a generator
of identifiers that the audit table does not know. -/
structure ProbedBy (database : Database) (inputs : List (Input console)) : Prop where
  answers : ∀ connection correlationId
    (answer : Except Failure ConnectionReconciliationDecision),
      Input.heard (I := console) (.inspectConnection connection correlationId) answer ∈ inputs →
        match answers connection with
        | some decision => answer = .ok decision
        | none => ∃ message, answer = .error ⟨.platformControlUnavailable, message⟩
  fresh : ∀ name ∈ drawnNames inputs, name ∉ database.tables.auditEvents.map AuditEvent.id
  distinct : (drawnNames inputs).Nodup

theorem reconciled_named : "platform_connection.reconciled" ≠ "" ∧ "platform_connection" ≠ "" := by
  decide

/-- The audit fact of a settled connection. -/
def reconciledEvent (command : ReconcilePlatformConnectionsCommand)
    (connection : PlatformConnection) (auditId : UUID) : AuditEvent where
  id := auditId
  correlationId := command.correlationId
  actorId := some command.systemActorId
  organizationId := some connection.fields.organizationId
  action := "platform_connection.reconciled"
  resourceType := "platform_connection"
  resourceId := some connection.fields.id.str
  result := .succeeded
  named := reconciled_named

/-- The row of a connection after its settlement. -/
def settleRow (connection : PlatformConnection) (row : PlatformConnectionRecord) :
    PlatformConnectionRecord :=
  match settled ports answers connection with
  | some updated =>
      if row.id = connection.fields.id then
        { row with
          status := updated.fields.status
          statusReason := updated.fields.statusReason.map StrEnum.value }
      else row
  | none => row

end Settling

section Writing

theorem Write.updateStatus_commits {database : Database} {row : PlatformConnectionRecord}
    (hrow : row ∈ database.tables.platformConnections) {status : ConnectionStatus}
    {reason : Option ConnectionStatusReason} {auditEvent : AuditEvent}
    (hfresh : auditEvent.id ∉ database.tables.auditEvents.map AuditEvent.id) :
    ∃ after, (Write.updateStatus row.id row.organizationId status reason none
      auditEvent).apply database = some after := by
  have hcount : rowcount (PlatformConnectionRecord.keyed row.id row.organizationId)
      database.tables.platformConnections = 1 := by
    have hmost : rowcount (PlatformConnectionRecord.keyed row.id row.organizationId)
        database.tables.platformConnections ≤ 1 :=
      rowcount_le_one database.constraints.connectionId fun other hother => by
        simp only [PlatformConnectionRecord.keyed, Bool.and_eq_true, beq_iff_eq] at hother
        exact hother.1
    have hsome : 0 < rowcount (PlatformConnectionRecord.keyed row.id row.organizationId)
        database.tables.platformConnections :=
      List.countP_pos_iff.mpr ⟨row, hrow, by simp [PlatformConnectionRecord.keyed]⟩
    omega
  have hkeys : ∀ {κ : Type} (value : PlatformConnectionRecord → κ),
      (∀ row : PlatformConnectionRecord, value { row with
        status := status
        statusReason := reason.map StrEnum.value } = value row) →
      (update (PlatformConnectionRecord.keyed row.id row.organizationId)
        (fun row => { row with status := status, statusReason := reason.map StrEnum.value })
          database.tables.platformConnections).map value =
        database.tables.platformConnections.map value :=
    fun value hsame => map_update hsame
  have hbefore := database.constraints
  have hconstraints : { database.tables with
      platformConnections := update (PlatformConnectionRecord.keyed row.id row.organizationId)
        (fun row => { row with status := status, statusReason := reason.map StrEnum.value })
          database.tables.platformConnections
      auditEvents := database.tables.auditEvents ++ [auditEvent] : Tables }.Constraints :=
    { hbefore with
      connectionId := by
        unfold UniqueOn
        rw [hkeys _ fun _ => rfl]
        exact hbefore.connectionId
      connectionExternalResource := by
        unfold UniqueOn
        rw [hkeys _ fun _ => rfl]
        exact hbefore.connectionExternalResource
      auditEventId := by
        refine uniqueOn_snoc.mpr ⟨hbefore.auditEventId, ?_⟩
        intro event hevent hid
        exact hfresh (hid ▸ List.mem_map_of_mem hevent)
      connectionOrganization := by
        intro other hother
        have hcolumn := List.mem_map_of_mem (f := PlatformConnectionRecord.organizationId) hother
        rw [hkeys _ fun _ => rfl] at hcolumn
        obtain ⟨old, hold, hsame⟩ := List.mem_map.mp hcolumn
        rw [← hsame]
        exact hbefore.connectionOrganization old hold
      lifecycleConnection := by
        intro entry hentry
        rw [hkeys _ fun _ => rfl]
        exact hbefore.lifecycleConnection entry hentry }
  refine ⟨⟨_, hconstraints⟩, Write.apply_eq_some.mpr ?_⟩
  simp only [Write.statements, hcount, ne_eq, not_true_eq_false, ↓reduceIte]
  simp

end Writing

section Batch

variable {ports : Ports} {answers : PlatformConnection → Option ConnectionReconciliationDecision}
variable {command : ReconcilePlatformConnectionsCommand} {database after : Database}
variable {connection : PlatformConnection} {inputs : List (Input console)}

/-- Applying a decision leaves the connection alone, or settles it with one transaction. -/
theorem applyDecision_runs {decision : ConnectionReconciliationDecision}
    {row : PlatformConnectionRecord} (hrow : row ∈ database.tables.platformConnections)
    (hread : connectionFromRecord row = some connection) {outcome : Except Failure Bool}
    (hfresh : ∀ name ∈ drawnNames inputs,
      name ∉ database.tables.auditEvents.map AuditEvent.id)
    (hruns : (UseCase.applyDecision command connection decision).Runs database inputs outcome
      after) :
    (¬ (connection.fields.status ≠ .disconnected ∧
        decision.targetStatus ∈ allowedTransitions connection.fields.status) ∧
      inputs = [] ∧ outcome = .ok false ∧ after = database) ∨
    (connection.fields.status ≠ .disconnected ∧
      decision.targetStatus ∈ allowedTransitions connection.fields.status ∧
        ∃ auditId, inputs = [.drew auditId] ∧ outcome = .ok true ∧
          (Write.updateStatus row.id row.organizationId decision.targetStatus
            (some decision.reason.statusReason) none
              (reconciledEvent command connection auditId)).apply database = some after) := by
  unfold UseCase.applyDecision at hruns
  obtain ⟨hid, horganization, _⟩ := connectionFromRecord_eq_some hread
  split at hruns
  · rename_i hdisconnected
    exact Or.inl ⟨fun hnot => hnot.1 hdisconnected, hruns⟩
  · rename_i hconnected
    split at hruns
    · rename_i hsame
      refine Or.inl ⟨fun hallowed => ?_, hruns⟩
      rw [← hsame] at hallowed
      exact not_mem_allowedTransitions_self _ hallowed.2
    · split at hruns
      · rename_i hrefused
        refine Or.inl ⟨fun hallowed => ?_, hruns⟩
        have hok : connection.transitionTo decision.targetStatus
            (some decision.reason.statusReason) = .ok _ :=
          PlatformConnection.transitionTo_eq_ok.mpr ⟨hallowed.2, rfl⟩
        rw [hrefused] at hok
        cases hok
      · rename_i updated htransition
        obtain ⟨hallowed, rfl⟩ := PlatformConnection.transitionTo_eq_ok.mp htransition
        obtain ⟨auditId, rest, rfl, hsave⟩ := hruns
        have hnew : auditId ∉ database.tables.auditEvents.map AuditEvent.id :=
          hfresh auditId (by simp [drawnNames])
        obtain ⟨stored, happly⟩ := @Write.updateStatus_commits database row hrow
          decision.targetStatus (some decision.reason.statusReason)
            (reconciledEvent command connection auditId) hnew
        have happly' := happly
        rw [← hid, ← horganization] at happly'
        obtain ⟨rfl, rfl, rfl⟩ := (Execution.runs_save_of_some happly').mp hsave
        exact Or.inr ⟨hconnected, hallowed, auditId, rfl, rfl, happly⟩

theorem ProbedBy.left {first second : List (Input console)}
    (hprobed : ProbedBy answers database (first ++ second)) :
    ProbedBy answers database first := by
  have hnames := drawnNames_append first second
  refine ⟨?_, ?_, ?_⟩
  · intro connection correlationId answer hheard
    exact hprobed.answers connection correlationId answer (List.mem_append_left _ hheard)
  · intro name hname
    exact hprobed.fresh name (hnames ▸ List.mem_append_left _ hname)
  · have hdistinct := hprobed.distinct
    rw [hnames] at hdistinct
    exact hdistinct.of_append_left

/-- What an execution is told after its first part, over the audit facts that the first
part added. -/
theorem ProbedBy.right {first second : List (Input console)}
    (hprobed : ProbedBy answers database (first ++ second))
    (hadded : ∀ name ∈ after.tables.auditEvents.map AuditEvent.id,
      name ∈ database.tables.auditEvents.map AuditEvent.id ∨ name ∈ drawnNames first) :
    ProbedBy answers after second := by
  have hnames := drawnNames_append first second
  have hdistinct := hprobed.distinct
  rw [hnames, List.nodup_append] at hdistinct
  refine ⟨?_, ?_, hdistinct.2.1⟩
  · intro connection correlationId answer hheard
    exact hprobed.answers connection correlationId answer (List.mem_append_right _ hheard)
  · intro name hname hstored
    rcases hadded name hstored with hbefore | hdrawn
    · exact hprobed.fresh name (hnames ▸ List.mem_append_right _ hname) hbefore
    · exact hdistinct.2.2 name hdrawn name hname rfl

theorem settled_eq_none : settled ports answers connection = none ↔
    ¬ (ports.hasProbe connection.fields.platform = true ∧
      connection.fields.status ≠ .disconnected ∧
        (decided answers connection).targetStatus ∈
          allowedTransitions connection.fields.status) := by
  unfold settled
  split <;> simp_all

/-- One connection of a batch is left alone, or settled with one transaction. -/
theorem reconcileConnection_runs {row : PlatformConnectionRecord}
    (hrow : row ∈ database.tables.platformConnections)
    (hread : connectionFromRecord row = some connection) {outcome : Except Failure Bool}
    (hprobed : ProbedBy answers database inputs)
    (hruns : (UseCase.reconcileConnection ports command connection).Runs database inputs
      outcome after) :
    (settled ports answers connection = none ∧ drawnNames inputs = [] ∧
      outcome = .ok false ∧ after = database) ∨
    ∃ updated auditId, settled ports answers connection = some updated ∧
      drawnNames inputs = [auditId] ∧ outcome = .ok true ∧
        (Write.updateStatus row.id row.organizationId updated.fields.status
          updated.fields.statusReason none
            (reconciledEvent command connection auditId)).apply database = some after := by
  unfold UseCase.reconcileConnection at hruns
  cases hprobe : ports.hasProbe connection.fields.platform with
  | false =>
      rw [hprobe] at hruns
      obtain ⟨rfl, rfl, rfl⟩ := hruns
      exact Or.inl ⟨settled_eq_none.mpr (by simp [hprobe]), rfl, rfl, rfl⟩
  | true =>
      rw [hprobe] at hruns
      obtain ⟨answer, rest, rfl, hrest⟩ := hruns
      have happlied : (UseCase.applyDecision command connection
          (decided answers connection)).Runs database rest outcome after := by
        have hanswer := hprobed.answers connection command.correlationId answer
          List.mem_cons_self
        unfold decided
        cases hassigned : answers connection with
        | none =>
            rw [hassigned] at hanswer
            obtain ⟨message, rfl⟩ := hanswer
            exact hrest
        | some decision =>
            rw [hassigned] at hanswer
            subst hanswer
            exact hrest
      have hfresh : ∀ name ∈ drawnNames rest,
          name ∉ database.tables.auditEvents.map AuditEvent.id := hprobed.fresh
      rcases applyDecision_runs hrow hread hfresh happlied with
        ⟨hnot, rfl, houtcome, hafter⟩ | ⟨hconnected, hallowed, auditId, rfl, houtcome, happly⟩
      · refine Or.inl ⟨settled_eq_none.mpr ?_, rfl, houtcome, hafter⟩
        exact fun hboth => hnot hboth.2
      · exact Or.inr ⟨_, auditId, if_pos ⟨hprobe, hconnected, hallowed⟩, rfl, houtcome,
          happly⟩

/-- The tables after the transaction of a settled connection. -/
theorem settled_tables {row : PlatformConnectionRecord}
    (hrow : row ∈ database.tables.platformConnections)
    (hread : connectionFromRecord row = some connection) {updated : PlatformConnection}
    (hsettled : settled ports answers connection = some updated) {auditEvent : AuditEvent}
    (happly : (Write.updateStatus row.id row.organizationId updated.fields.status
      updated.fields.statusReason none auditEvent).apply database = some after) :
    after.tables.platformConnections =
        database.tables.platformConnections.map (settleRow ports answers connection) ∧
      after.tables.auditEvents = database.tables.auditEvents ++ [auditEvent] := by
  have hstatements := Write.apply_eq_some.mp happly
  constructor
  · have hnone : (Write.updateStatus row.id row.organizationId updated.fields.status
        updated.fields.statusReason none auditEvent).createdConnections = [] := rfl
    rw [Write.platformConnections_eq hstatements, hnone, List.append_nil]
    refine List.map_congr_left fun other hother => ?_
    have hid := (connectionFromRecord_eq_some hread).1
    unfold settleRow
    rw [hsettled]
    simp only [Write.rewriteConnection, hid]
    by_cases hsame : other.id = row.id
    · have heq := database.constraints.connectionId.eq hother hrow hsame
      subst heq
      simp [PlatformConnectionRecord.keyed]
    · simp [PlatformConnectionRecord.keyed, hsame]
  · simp only [Write.statements, Option.ite_none_left_eq_some, Option.some.injEq]
      at hstatements
    rw [← hstatements.2]

@[simp] theorem settleRow_id (row : PlatformConnectionRecord) :
    (settleRow ports answers connection row).id = row.id := by
  unfold settleRow
  split
  · split <;> rfl
  · rfl

theorem settleRow_of_ne {row : PlatformConnectionRecord}
    (hne : row.id ≠ connection.fields.id) : settleRow ports answers connection row = row := by
  unfold settleRow
  split
  · rw [if_neg hne]
  · rfl

/-- All the rows after a batch. -/
def settleRows (ports : Ports)
    (answers : PlatformConnection → Option ConnectionReconciliationDecision)
    (connections : List PlatformConnection) (row : PlatformConnectionRecord) :
    PlatformConnectionRecord :=
  connections.foldl (fun row connection => settleRow ports answers connection row) row

/-- In a batch of different connections each row is settled by its own. -/
theorem settleRows_eq {connections : List PlatformConnection}
    (hdistinct : (connections.map (·.fields.id)).Nodup) (hmem : connection ∈ connections)
    {row : PlatformConnectionRecord} (hid : row.id = connection.fields.id) :
    settleRows ports answers connections row = settleRow ports answers connection row := by
  have hskip : ∀ {rest : List PlatformConnection} {row : PlatformConnectionRecord},
      row.id ∉ rest.map (·.fields.id) → settleRows ports answers rest row = row := by
    intro rest
    induction rest with
    | nil => exact fun _ => rfl
    | cons first rest ih =>
        intro row hnot
        rw [List.map_cons, List.mem_cons, not_or] at hnot
        rw [settleRows, List.foldl_cons, settleRow_of_ne hnot.1]
        exact ih hnot.2
  induction connections generalizing row with
  | nil => cases hmem
  | cons first rest ih =>
      rw [List.map_cons, List.nodup_cons] at hdistinct
      rw [settleRows, List.foldl_cons]
      rcases List.mem_cons.mp hmem with rfl | hrest
      · exact hskip (by rw [settleRow_id, hid]; exact hdistinct.1)
      · have hne : row.id ≠ first.fields.id := by
          rw [hid]
          exact fun hsame => hdistinct.1 (hsame ▸ List.mem_map_of_mem hrest)
        rw [settleRow_of_ne hne]
        exact ih hdistinct.2 hrest hid

/-- The connections of a batch that change. -/
def changing (ports : Ports)
    (answers : PlatformConnection → Option ConnectionReconciliationDecision)
    (connections : List PlatformConnection) : List PlatformConnection :=
  connections.filter fun connection => (settled ports answers connection).isSome

/-- Run lemma of the loop: the rows are settled one after the other, the counters count, and
every change appends its audit fact. -/
theorem reconcileConnections_runs {connections : List PlatformConnection}
    (hstored : ∀ connection ∈ connections, ∃ row ∈ database.tables.platformConnections,
      connectionFromRecord row = some connection)
    (hdistinct : (connections.map (·.fields.id)).Nodup)
    {result : ReconcilePlatformConnectionsResult}
    {outcome : Except Failure ReconcilePlatformConnectionsResult}
    (hprobed : ProbedBy answers database inputs)
    (hruns : (UseCase.reconcileConnections ports command connections result).Runs database
      inputs outcome after) :
    outcome = .ok
        { inspected := result.inspected + connections.length
          changed := result.changed + (changing ports answers connections).length
          skipped := result.skipped +
            (connections.length - (changing ports answers connections).length) } ∧
      after.tables.platformConnections =
        database.tables.platformConnections.map (settleRows ports answers connections) ∧
      after.tables.auditEvents = database.tables.auditEvents ++
        List.zipWith (reconciledEvent command) (changing ports answers connections)
          (drawnNames inputs) ∧
      (drawnNames inputs).length = (changing ports answers connections).length := by
  induction connections generalizing database inputs result with
  | nil =>
      obtain ⟨rfl, rfl, rfl⟩ := hruns
      have hsame : after.tables.platformConnections =
          after.tables.platformConnections.map (settleRows ports answers []) :=
        (List.map_id'' (fun _ => rfl) _).symm
      exact ⟨by simp [changing], hsame, by simp [changing, drawnNames], rfl⟩
  | cons connection rest ih =>
      rw [List.map_cons, List.nodup_cons] at hdistinct
      obtain ⟨row, hrow, hread⟩ := hstored connection List.mem_cons_self
      unfold UseCase.reconcileConnections at hruns
      rcases Execution.runs_bind.mp hruns with
        ⟨first, second, middle, reconciled, rfl, hfirst, hsecond⟩ | ⟨error, herror, _⟩
      · rcases reconcileConnection_runs hrow hread hprobed.left hfirst with
          ⟨hsettled, hnames, hreconciled, rfl⟩ |
            ⟨updated, auditId, hsettled, hnames, hreconciled, happly⟩
        · cases hreconciled
          obtain ⟨houtcome, hrows, hevents, hcount⟩ := ih
            (fun other hother => hstored other (List.mem_cons_of_mem _ hother)) hdistinct.2
            (hprobed.right fun _ hname => Or.inl hname) hsecond
          have hchanging : changing ports answers (connection :: rest) =
              changing ports answers rest := by
            simp [changing, hsettled]
          have hle : (changing ports answers rest).length ≤ rest.length :=
            List.length_filter_le _ _
          have hdrawn : drawnNames (first ++ second) = drawnNames second := by
            rw [drawnNames_append, hnames, List.nil_append]
          refine ⟨?_, ?_, ?_, ?_⟩
          · rw [houtcome, hchanging]
            simp only [Bool.false_eq_true, ↓reduceIte, List.length_cons, Except.ok.injEq,
              ReconcilePlatformConnectionsResult.mk.injEq, true_and]
            omega
          · rw [hrows]
            refine List.map_congr_left fun other _ => ?_
            have hsame : settleRow ports answers connection other = other := by
              simp [settleRow, hsettled]
            rw [settleRows, settleRows, List.foldl_cons, hsame]
          · rw [hevents, hchanging, hdrawn]
          · rw [hdrawn, hchanging, hcount]
        · cases hreconciled
          obtain ⟨hrows₁, hevents₁⟩ := settled_tables hrow hread hsettled happly
          have hstored' : ∀ other ∈ rest, ∃ stored ∈ middle.tables.platformConnections,
              connectionFromRecord stored = some other := by
            intro other hother
            obtain ⟨stored, hmem, hdecoded⟩ := hstored other (List.mem_cons_of_mem _ hother)
            refine ⟨stored, ?_, hdecoded⟩
            rw [hrows₁]
            refine List.mem_map.mpr ⟨stored, hmem, settleRow_of_ne ?_⟩
            rw [← (connectionFromRecord_eq_some hdecoded).1]
            exact fun hsame => hdistinct.1 (hsame ▸ List.mem_map_of_mem hother)
          have hprobed' : ProbedBy answers middle second := by
            refine hprobed.right ?_
            intro name hname
            rw [hevents₁, List.map_append] at hname
            rw [hnames]
            exact List.mem_append.mp hname
          obtain ⟨houtcome, hrows, hevents, hcount⟩ := ih hstored' hdistinct.2 hprobed' hsecond
          have hchanging : changing ports answers (connection :: rest) =
              connection :: changing ports answers rest := by
            simp [changing, hsettled]
          have hle : (changing ports answers rest).length ≤ rest.length :=
            List.length_filter_le _ _
          have hdrawn : drawnNames (first ++ second) = auditId :: drawnNames second := by
            rw [drawnNames_append, hnames, List.singleton_append]
          refine ⟨?_, ?_, ?_, ?_⟩
          · rw [houtcome, hchanging]
            simp only [↓reduceIte, List.length_cons, Except.ok.injEq,
              ReconcilePlatformConnectionsResult.mk.injEq]
            omega
          · rw [hrows, hrows₁, List.map_map]
            rfl
          · rw [hevents, hevents₁, hchanging, hdrawn, List.append_assoc]
            rfl
          · rw [hdrawn, hchanging, List.length_cons, List.length_cons, hcount]
      · rcases reconcileConnection_runs hrow hread hprobed herror with
          ⟨_, _, houtcome, _⟩ | ⟨_, _, _, _, houtcome, _⟩
        · cases houtcome
        · cases houtcome

/-- What the database after a batch stores for the row of a connection. -/
theorem connectionState_settled {settle : PlatformConnectionRecord → PlatformConnectionRecord}
    (hid : ∀ row, (settle row).id = row.id)
    (hrows : after.tables.platformConnections =
      database.tables.platformConnections.map settle) {row : PlatformConnectionRecord}
    (hrow : row ∈ database.tables.platformConnections) :
    after.connectionState row.id = some ((settle row).status, (settle row).statusReason) := by
  have hfound : after.tables.platformConnections.find? (·.id == row.id) =
      some (settle row) := by
    refine find?_eq_some after.constraints.connectionId ?_ ?_ ?_
    · rw [hrows]
      exact List.mem_map_of_mem hrow
    · simp [hid]
    · intro other _ hother
      rw [hid]
      exact beq_iff_eq.mp hother
  rw [Database.connectionState, hfound]
  rfl

@[simp] theorem settleRows_id (connections : List PlatformConnection)
    (row : PlatformConnectionRecord) :
    (settleRows ports answers connections row).id = row.id := by
  induction connections generalizing row with
  | nil => rfl
  | cons connection rest ih =>
      rw [settleRows, List.foldl_cons]
      exact (ih _).trans (settleRow_id row)

/-- A row that is none of the batch stays as it is. -/
theorem settleRows_of_not_mem {connections : List PlatformConnection}
    {row : PlatformConnectionRecord} (hnot : row.id ∉ connections.map (·.fields.id)) :
    settleRows ports answers connections row = row := by
  induction connections with
  | nil => rfl
  | cons first rest ih =>
      rw [List.map_cons, List.mem_cons, not_or] at hnot
      rw [settleRows, List.foldl_cons, settleRow_of_ne hnot.1]
      exact ih hnot.2

/-- A connection changes exactly if its row gets another status. -/
theorem settleRow_status {row : PlatformConnectionRecord}
    (hread : connectionFromRecord row = some connection) :
    (settleRow ports answers connection row).status ≠ row.status ↔
      (settled ports answers connection).isSome = true := by
  obtain ⟨hid, _, _, _, hstatus, _⟩ := connectionFromRecord_eq_some hread
  unfold settleRow settled
  by_cases hsettles : ports.hasProbe connection.fields.platform = true ∧
      connection.fields.status ≠ .disconnected ∧
        (decided answers connection).targetStatus ∈
          allowedTransitions connection.fields.status
  · rw [if_pos hsettles]
    simp only [hid, ↓reduceIte, Option.isSome_some, iff_true]
    rw [← hstatus]
    intro hsame
    have hallowed := hsettles.2.2
    have htarget : (decided answers connection).targetStatus = connection.fields.status := hsame
    rw [htarget] at hallowed
    exact not_mem_allowedTransitions_self _ hallowed
  · rw [if_neg hsettles]
    simp

/-- The changed rows are those of the connections that change. -/
theorem changedRows_ids {connections : List PlatformConnection}
    (hstored : ∀ connection ∈ connections, ∃ row ∈ database.tables.platformConnections,
      connectionFromRecord row = some connection)
    (hdistinct : (connections.map (·.fields.id)).Nodup)
    (hrows : after.tables.platformConnections =
      database.tables.platformConnections.map (settleRows ports answers connections)) :
    ((database.changedRows after).map PlatformConnectionRecord.id).Perm
      ((changing ports answers connections).map (·.fields.id)) := by
  have hchanged : ∀ row, row ∈ database.changedRows after ↔
      row ∈ database.tables.platformConnections ∧
        (settleRows ports answers connections row).status ≠ row.status := by
    intro row
    rw [Database.changedRows, List.mem_filter]
    refine and_congr_right fun hrow => ?_
    rw [connectionState_settled (settleRows_id connections) hrows hrow]
    simp
  refine (List.perm_ext_iff_of_nodup ?_ ?_).mpr ?_
  · exact UniqueOn.sublist database.constraints.connectionId List.filter_sublist
  · exact hdistinct.sublist (List.filter_sublist.map _)
  · intro id
    rw [List.mem_map, List.mem_map]
    constructor
    · rintro ⟨row, hrow, rfl⟩
      obtain ⟨hmem, hstatus⟩ := (hchanged row).mp hrow
      by_cases hbatch : row.id ∈ connections.map (·.fields.id)
      · obtain ⟨connection, hconnection, hid⟩ := List.mem_map.mp hbatch
        obtain ⟨stored, hin, hread⟩ := hstored connection hconnection
        have hsame : stored = row := database.constraints.connectionId.eq hin hmem
          ((connectionFromRecord_eq_some hread).1.symm.trans hid)
        subst hsame
        rw [settleRows_eq hdistinct hconnection hid.symm] at hstatus
        exact ⟨connection, List.mem_filter.mpr ⟨hconnection, (settleRow_status hread).mp hstatus⟩,
          hid⟩
      · rw [settleRows_of_not_mem hbatch] at hstatus
        exact absurd rfl hstatus
    · rintro ⟨connection, hconnection, rfl⟩
      obtain ⟨hbatch, hsettled⟩ := List.mem_filter.mp hconnection
      obtain ⟨row, hrow, hread⟩ := hstored connection hbatch
      have hid := (connectionFromRecord_eq_some hread).1
      refine ⟨row, (hchanged row).mpr ⟨hrow, ?_⟩, hid.symm⟩
      rw [settleRows_eq hdistinct hbatch hid.symm]
      exact (settleRow_status hread).mpr hsettled

/-- The audit facts of a batch name the connections that change. -/
theorem reconciledEvents_resources {connections : List PlatformConnection}
    {names : List UUID} (hcount : names.length = connections.length) :
    (List.zipWith (reconciledEvent command) connections names).map (·.resourceId) =
      connections.map fun connection => some connection.fields.id.str := by
  induction connections generalizing names with
  | nil => rfl
  | cons connection rest ih =>
      cases names with
      | nil => cases hcount
      | cons name names =>
          rw [List.zipWith_cons_cons, List.map_cons, List.map_cons, ih (Nat.succ.inj hcount)]
          rfl

end Batch

namespace Scenario

/-- The connection of `withConnection`, as the reader hands it over. -/
def degradedGuild : PlatformConnection :=
  ⟨⟨4, 2, .discord, "guild", .degraded, none, []⟩, by decide⟩

def pass : ReconcilePlatformConnectionsCommand := ⟨9, 8, 100⟩

/-- The probe finds the guild healthy. -/
def recovered : List (Input console) :=
  [.heard (.inspectConnection degradedGuild 8) (.ok healthy), .drew 40]

end Scenario

end MuxivoConsole
