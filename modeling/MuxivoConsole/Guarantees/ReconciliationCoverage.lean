/-
Which connections a sequence of reconciliation ticks reaches while the connections stay as
they are.
-/
import MuxivoConsole.Guarantees.Reconciliation

namespace MuxivoConsole

open Interleaving Paging Relational

/-- The rows that are not disconnected. -/
def reconcilableRows (rows : List PlatformConnectionRecord) : List PlatformConnectionRecord :=
  rows.filter (·.status != .disconnected)

/-- The rows that one execution reads. -/
def firstRows (rows : List PlatformConnectionRecord) (limit : Nat) :
    List PlatformConnectionRecord :=
  (ordered PlatformConnectionRecord.id (reconcilableRows rows)).take limit

theorem Database.reconcilableConnections_eq (database : Database) (limit : Nat) :
    database.reconcilableConnections limit =
      (firstRows database.tables.platformConnections limit).filterMap connectionFromRecord :=
  rfl

theorem firstRows_subset {rows : List PlatformConnectionRecord} {limit : Nat}
    {row : PlatformConnectionRecord} (hrow : row ∈ firstRows rows limit) : row ∈ rows :=
  (List.mem_filter.mp (mem_ordered.mp (List.mem_of_mem_take hrow))).1

/-- One execution that changes no connection. -/
structure Tick (ports : Ports) (rows : List PlatformConnectionRecord) (limit : Nat) where
  database : Database
  command : ReconcilePlatformConnectionsCommand
  inputs : List (Input console)
  result : ReconcilePlatformConnectionsResult
  after : Database
  bounded : command.limit = limit
  runs : (UseCase.reconcilePlatformConnections ports command).Runs database inputs
    (.ok result) after
  unchanged : database.tables.platformConnections = rows ∧
    after.tables.platformConnections = rows

section Coverage

variable {ports : Ports} {rows : List PlatformConnectionRecord} {limit : Nat}
variable {command : ReconcilePlatformConnectionsCommand} {database after : Database}
variable {inputs : List (Input console)} {connection : PlatformConnection}

/-- The loop goes over the connection, and asks the probe of its platform if there is one. -/
def Tick.Inspects (tick : Tick ports rows limit) (connection : PlatformConnection) : Prop :=
  connection ∈ tick.database.reconcilableConnections tick.command.limit ∧
    (ports.hasProbe connection.fields.platform = true →
      ∃ answer, Input.heard (I := console)
        (.inspectConnection connection tick.command.correlationId) answer ∈ tick.inputs)

/-- In this many ticks every well-formed connection that is not disconnected is inspected. -/
def CoveredIn (ports : Ports) (rows : List PlatformConnectionRecord) (limit count : Nat) : Prop :=
  ∀ ticks : List (Tick ports rows limit), ticks.length = count →
    ∀ row ∈ reconcilableRows rows, ∀ connection, connectionFromRecord row = some connection →
      ∃ tick ∈ ticks, tick.Inspects connection

/-- The loop asks for every connection of its list whose platform has a probe. -/
theorem reconcileConnections_asks {connections : List PlatformConnection}
    {result final : ReconcilePlatformConnectionsResult}
    (hruns : (UseCase.reconcileConnections ports command connections result).Runs database
      inputs (.ok final) after) (hmem : connection ∈ connections)
    (hprobe : ports.hasProbe connection.fields.platform = true) :
    ∃ answer, Input.heard (I := console)
      (.inspectConnection connection command.correlationId) answer ∈ inputs := by
  induction connections generalizing database inputs result with
  | nil => cases hmem
  | cons first rest ih =>
      unfold UseCase.reconcileConnections at hruns
      rcases Execution.runs_bind.mp hruns with
        ⟨before, later, middle, reconciled, rfl, hfirst, hrest⟩ | ⟨error, _, houtcome⟩
      · rcases List.mem_cons.mp hmem with rfl | hlater
        · unfold UseCase.reconcileConnection at hfirst
          rw [hprobe] at hfirst
          obtain ⟨answer, told, rfl, _⟩ := hfirst
          exact ⟨answer, List.mem_append_left _ List.mem_cons_self⟩
        · obtain ⟨answer, hheard⟩ := ih hrest hlater
          exact ⟨answer, List.mem_append_right _ hheard⟩
      · cases houtcome

theorem Tick.inspects_of_mem (tick : Tick ports rows limit)
    (hmem : connection ∈ (firstRows rows limit).filterMap connectionFromRecord) :
    tick.Inspects connection := by
  have hlisted : connection ∈ tick.database.reconcilableConnections tick.command.limit := by
    rw [Database.reconcilableConnections_eq, tick.unchanged.1, tick.bounded]
    exact hmem
  exact ⟨hlisted, reconcileConnections_asks tick.runs hlisted⟩

/-- The reason with which a probe can report a status as it is stored. -/
def storedReason : ConnectionStatus → ConnectionReconciliationReason
  | .pending => .healthy
  | .active => .healthy
  | .degraded => .healthy
  | .reauthRequired => .tokenExpired
  | .disconnected => .resourceRemoved

theorem storedReason_admissible (status : ConnectionStatus) :
    status ∈ allowedTargetStatuses (storedReason status) := by
  cases status <;> decide

/-- A probe can report every status as it is stored. -/
def storedStatus (status : ConnectionStatus) : ConnectionReconciliationDecision :=
  ⟨status, storedReason status, storedReason_admissible status⟩

theorem storedStatus_targetStatus (status : ConnectionStatus) :
    (storedStatus status).targetStatus = status := by
  cases status <;> rfl

theorem reconcileConnection_quiet (ports : Ports) (command : ReconcilePlatformConnectionsCommand)
    (connection : PlatformConnection) (database : Database) :
    ∃ inputs, (UseCase.reconcileConnection ports command connection).Runs database inputs
      (.ok false) database := by
  unfold UseCase.reconcileConnection
  cases ports.hasProbe connection.fields.platform with
  | false => exact ⟨[], rfl, rfl, rfl⟩
  | true =>
      refine ⟨[.heard (.inspectConnection connection command.correlationId)
        (.ok (storedStatus connection.fields.status))], _, [], rfl, ?_⟩
      have happlied : (UseCase.applyDecision command connection
          (storedStatus connection.fields.status)).Runs database [] (.ok false) database := by
        unfold UseCase.applyDecision
        rw [storedStatus_targetStatus]
        by_cases hstatus : connection.fields.status = .disconnected
        · rw [if_pos hstatus]
          exact ⟨rfl, rfl, rfl⟩
        · rw [if_neg hstatus, if_pos rfl]
          exact ⟨rfl, rfl, rfl⟩
      exact happlied

/-- Probes that report what is stored leave the database as it is. -/
theorem reconcileConnections_quiet (ports : Ports)
    (command : ReconcilePlatformConnectionsCommand) (connections : List PlatformConnection)
    (result : ReconcilePlatformConnectionsResult) (database : Database) :
    ∃ inputs final, (UseCase.reconcileConnections ports command connections result).Runs
      database inputs (.ok final) database := by
  induction connections generalizing result with
  | nil => exact ⟨[], result, rfl, rfl, rfl⟩
  | cons first rest ih =>
      obtain ⟨told, hfirst⟩ := reconcileConnection_quiet ports command first database
      obtain ⟨later, final, hrest⟩ := ih
        { inspected := result.inspected + 1
          changed := result.changed
          skipped := result.skipped + 1 }
      refine ⟨told ++ later, final, ?_⟩
      unfold UseCase.reconcileConnections
      exact Execution.runs_bind.mpr (Or.inl ⟨told, later, database, false, rfl, hfirst, hrest⟩)

theorem exists_tick (ports : Ports) (database : Database) (limit : Nat) :
    ∃ tick : Tick ports database.tables.platformConnections limit,
      tick.database = database := by
  have hcommand : ∃ command : ReconcilePlatformConnectionsCommand, command.limit = limit :=
    ⟨⟨0, 0, limit⟩, rfl⟩
  obtain ⟨command, hlimit⟩ := hcommand
  obtain ⟨inputs, final, hruns⟩ := reconcileConnections_quiet ports command
    (database.reconcilableConnections command.limit) ⟨0, 0, 0⟩ database
  exact ⟨⟨database, command, inputs, final, database, hlimit, hruns, rfl, rfl⟩, rfl⟩

/-- Every tick reads the same rows, so what is covered is among the first of them. -/
theorem CoveredIn.first {count : Nat}
    (hcovered : CoveredIn ports database.tables.platformConnections limit count)
    {row : PlatformConnectionRecord}
    (hrow : row ∈ reconcilableRows database.tables.platformConnections)
    (hread : connectionFromRecord row = some connection) :
    row ∈ firstRows database.tables.platformConnections limit := by
  obtain ⟨quiet, hquiet⟩ := exists_tick ports database limit
  obtain ⟨tick, htick, hinspects⟩ := hcovered (List.replicate count quiet)
    List.length_replicate row hrow connection hread
  have hlisted := hinspects.1
  rw [Database.reconcilableConnections_eq, tick.unchanged.1, tick.bounded] at hlisted
  obtain ⟨other, hother, hsame⟩ := List.mem_filterMap.mp hlisted
  have hid : other.id = row.id :=
    (connectionFromRecord_eq_some hsame).1.symm.trans (connectionFromRecord_eq_some hread).1
  have heq : other = row := database.constraints.connectionId.eq (firstRows_subset hother)
    (List.mem_filter.mp hrow).1 hid
  rwa [heq] at hother

/-- As many ticks as there are batches inspect every well-formed connection that is not
disconnected, exactly if one batch holds them all: list_reconcilable always starts with the
lowest identifier. -/
theorem reconciliation_covers_iff (ports : Ports) (database : Database) (limit : Nat)
    (hlimit : 1 ≤ limit) :
    CoveredIn ports database.tables.platformConnections limit
        (((reconcilableRows database.tables.platformConnections).length + limit - 1) / limit) ↔
      ∀ row ∈ reconcilableRows database.tables.platformConnections,
        (connectionFromRecord row).isSome = true →
          row ∈ firstRows database.tables.platformConnections limit := by
  constructor
  · intro hcovered row hrow hread
    obtain ⟨connection, hconnection⟩ := Option.isSome_iff_exists.mp hread
    exact hcovered.first hrow hconnection
  · intro hfirst ticks hlength row hrow connection hread
    have hrows : 0 < (reconcilableRows database.tables.platformConnections).length :=
      List.length_pos_of_mem hrow
    have hbatches : 0 <
        ((reconcilableRows database.tables.platformConnections).length + limit - 1) / limit :=
      Nat.div_pos (by omega) hlimit
    have hticks : 0 < ticks.length := hlength ▸ hbatches
    have hmem := hfirst row hrow (Option.isSome_iff_exists.mpr ⟨connection, hread⟩)
    exact ⟨ticks[0], List.getElem_mem hticks, ticks[0].inspects_of_mem
      (List.mem_filterMap.mpr ⟨row, hmem, hread⟩)⟩

end Coverage

namespace Scenario

/-- Two guilds of one organization. -/
def twoGuilds : Database where
  tables := { (withConnection .active).tables with
    platformConnections :=
      [⟨4, 2, "discord", "guild", .active, none, none⟩,
        ⟨5, 2, "discord", "other guild", .active, none, none⟩] }
  constraints := by decide

end Scenario

theorem reconciliation_covers_single :
    CoveredIn Scenario.ports (Scenario.withConnection .active).tables.platformConnections 1 1 ↔
      ∀ row ∈ reconcilableRows (Scenario.withConnection .active).tables.platformConnections,
        (connectionFromRecord row).isSome = true →
          row ∈ firstRows (Scenario.withConnection .active).tables.platformConnections 1 :=
  reconciliation_covers_iff Scenario.ports (Scenario.withConnection .active) 1 (by decide)

/-- Two ticks with batches of one connection both inspect the first of two guilds. -/
theorem second_guild_not_covered :
    ¬ CoveredIn Scenario.ports Scenario.twoGuilds.tables.platformConnections 1
      (((reconcilableRows Scenario.twoGuilds.tables.platformConnections).length + 1 - 1) / 1) := by
  intro hcovered
  have hread : connectionFromRecord ⟨5, 2, "discord", "other guild", .active, none, none⟩ =
      some ⟨⟨5, 2, .discord, "other guild", .active, none, []⟩, by decide⟩ := by decide
  have hfirst := hcovered.first (by decide) hread
  revert hfirst
  decide

end MuxivoConsole
