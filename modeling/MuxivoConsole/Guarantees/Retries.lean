/-
Retry keys of the web client.  It sends the same key for every request of an
action on a connection, and the server never forgets a key: the second request
is answered from the stored result of the first one, whatever has happened to
the connection in between.
-/
import MuxivoConsole.Guarantees.Revocation

namespace MuxivoConsole

open Interleaving Relational

/-- The `Idempotency-Key` header of `runConnectionLifecycle`. -/
def lifecycleHeader (action : PlatformConnectionLifecycleAction) (connectionId : UUID) :
    String :=
  StrEnum.value action ++ ":" ++ connectionId.str

/-- The request was issued by `runConnectionLifecycle`. -/
def ManagePlatformConnectionLifecycleCommand.FromClient
    (command : ManagePlatformConnectionLifecycleCommand) : Prop :=
  command.idempotencyKey = some (lifecycleHeader command.action command.connectionId)

/-- The execution has returned a connection. -/
def returnsConnection (process : ConsoleProcess) : Bool :=
  match process.execution.outcome? with
  | some (.ok (.connection _)) => true
  | _ => false

theorem returnsConnection_iff {process : ConsoleProcess} :
    returnsConnection process = true ↔
      ∃ connection, process.execution = .done (.ok (.connection connection)) := by
  unfold returnsConnection
  constructor
  · intro hreturns
    split at hreturns
    · rename_i connection hdone
      exact ⟨connection, Execution.outcome?_eq_some.mp hdone⟩
    · cases hreturns
  · rintro ⟨connection, hdone⟩
    rw [Execution.outcome?_eq_some.mpr hdone]

/-- The latest execution is this lifecycle request of the web client, and it
has just returned a connection. -/
structure JustReturned (system : ConsoleSystem) (process : ConsoleProcess)
    (command : ManagePlatformConnectionLifecycleCommand) : Prop where
  latest : system.processes.getLast? = some process
  request : process.request = .managePlatformConnectionLifecycle command
  client : command.FromClient
  returned : returnsConnection process = true

/-- The stored status of the connection is the target of the action. -/
def AtTarget (database : Database) (command : ManagePlatformConnectionLifecycleCommand) :
    Prop :=
  ∃ row ∈ database.tables.platformConnections, row.id = command.connectionId ∧
    row.status = command.action.targetStatus

/-- The key of the request has a stored result. -/
def KeyStored (database : Database) (command : ManagePlatformConnectionLifecycleCommand) :
    Prop :=
  ∃ record ∈ database.tables.lifecycleIdempotency,
    record.organizationId = command.organizationId ∧
      record.idempotencyKey = lifecycleHeader command.action command.connectionId

/-- The header has no blanks and is short, so the server takes it as it is. -/
theorem lifecycleHeader_solid (action : PlatformConnectionLifecycleAction)
    (connectionId : UUID) :
    ∀ character ∈ (lifecycleHeader action connectionId).toList,
      isSpace character = false := by
  intro character hmem
  simp only [lifecycleHeader, String.toList_append, List.mem_append] at hmem
  rcases hmem with (haction | hcolon) | hid
  · exact solid_of_all (by cases action <;> decide) character haction
  · exact solid_of_all (by decide) character hcolon
  · exact connectionId.str_solid character hid

theorem ManagePlatformConnectionLifecycleCommand.FromClient.retryKey_eq
    {command : ManagePlatformConnectionLifecycleCommand} (hclient : command.FromClient) :
    retryKey command.idempotencyKey =
      some (lifecycleHeader command.action command.connectionId) := by
  have hstrip := strip_eq_self (lifecycleHeader_solid command.action command.connectionId)
  have hlong : lifecycleHeader command.action command.connectionId ≠ "" := by
    intro hempty
    have hlength := congrArg String.length hempty
    simp [lifecycleHeader] at hlength
  rw [hclient, retryKey, Option.bind_some, hstrip, if_neg hlong]

/-- A lifecycle write that commits alone leaves its connection at the target,
and stores a key that was not there. -/
theorem lifecycleWrite_stored {command : ManagePlatformConnectionLifecycleCommand}
    {database after : Database} {auditEvent : AuditEvent} (hclient : command.FromClient)
    (happly : (Write.updateStatus command.connectionId command.organizationId
      command.action.targetStatus (some command.action.statusReason)
      ((retryKey command.idempotencyKey).map (lifecycleRecord command)) auditEvent).apply
        database = some after) :
    AtTarget after command ∧ ¬ KeyStored database command := by
  constructor
  · obtain ⟨row, hrow, hkeyed⟩ := Write.updateStatus_touches happly
    refine ⟨_, Write.rewriteConnection_mem happly hrow, ?_, ?_⟩
    · simp only [PlatformConnectionRecord.keyed, Bool.and_eq_true, beq_iff_eq] at hkeyed
      rw [Write.rewriteConnection_id, hkeyed.1]
    · simp only [Write.rewriteConnection, hkeyed, ↓reduceIte]
  · rintro ⟨record, hrecord, htenant, hkey⟩
    have hunique := after.constraints.lifecycleKey
    have hstatements := Write.apply_eq_some.mp happly
    simp only [Write.statements, Option.ite_none_left_eq_some, Option.some.injEq,
      hclient.retryKey_eq, Option.map_some, Option.toList_some] at hstatements
    rw [← hstatements.2] at hunique
    apply hunique.fresh hrecord
    rw [htenant, hkey]
    rfl

/-- One whole execution: what it returns has been done exactly when the key was
new or there was nothing left to do. -/
theorem LifecycleReturned.done_iff {command : ManagePlatformConnectionLifecycleCommand}
    {history : ConsoleHistory} {start store : Database}
    (hwhole : LifecycleReturned command [] history) (hclient : command.FromClient)
    (hreplays : Replays (I := console) start history store) :
    AtTarget store command ↔ (KeyStored start command → AtTarget start command) := by
  cases hwhole with
  | replayed hquiet hsaw hid horganization hrecord htenant hkey =>
      have hsame := hquiet.store_eq hreplays
      have hstored := hrecord.stored hreplays
      subst hsame
      rw [hclient.retryKey_eq, Option.some.injEq] at hkey
      have hkeyStored : KeyStored store command := ⟨_, hstored, htenant, hkey⟩
      exact ⟨fun htarget _ => htarget, fun hcondition => hcondition hkeyStored⟩
  | unchanged hquiet hsaw hid horganization hstatus =>
      have hsame := hquiet.store_eq hreplays
      have hstored := hsaw.stored hreplays
      subst hsame
      have htarget : AtTarget store command := ⟨_, hstored, hid, hstatus⟩
      exact ⟨fun _ _ => htarget, fun _ => htarget⟩
  | written hquiet hafter =>
      subst hafter
      obtain ⟨middle, hasked, next, happly, hnext⟩ := replays_append.mp hreplays
      have hsame := hquiet.store_eq hasked
      simp only [Replays] at hnext
      subst hsame hnext
      obtain ⟨htarget, hnew⟩ := lifecycleWrite_stored hclient happly
      exact ⟨fun _ hkeyStored => absurd hkeyStored hnew, fun _ => htarget⟩

theorem returned_done_iff {ports : Ports} {database : Database}
    {choices : List ConsoleChoice}
    (hserial : System.Serial (Request.program ports) database.idle choices)
    {process : ConsoleProcess} {command : ManagePlatformConnectionLifecycleCommand}
    (hreturned : JustReturned (database.after ports choices) process command) :
    AtTarget (database.after ports choices).world.store command ↔
      (KeyStored (database.idle.storeAt (Request.program ports) choices process.startedAt)
          command →
        AtTarget (database.idle.storeAt (Request.program ports) choices process.startedAt)
          command) := by
  obtain ⟨connection, hdone⟩ := returnsConnection_iff.mp hreturned.returned
  have hprocess := List.mem_of_getLast? hreturned.latest
  have hpost := (console_holds ports database choices).outcome hprocess hdone
  rw [hreturned.request] at hpost
  obtain ⟨_, hwhole⟩ := hpost connection rfl
  have hreplays := hserial.solo.latest hreturned.latest
  exact hwhole.done_iff hreturned.client hreplays

namespace Scenario

/-- The web client asks for an action, and the request runs as a whole. -/
def clicked (action : PlatformConnectionLifecycleAction) (index name : Nat) :
    List ConsoleChoice :=
  [act action (some (lifecycleHeader action 4))] ++ turns index name 6

/-- The command of such a request. -/
def command (action : PlatformConnectionLifecycleAction) :
    ManagePlatformConnectionLifecycleCommand :=
  ⟨1, 2, 4, action, 5, some (lifecycleHeader action 4)⟩

/-- Revoked, reauthorized, and revoked once more. -/
def revokedAgain : List ConsoleChoice :=
  clicked .revoke 0 10 ++ clicked .reauthorize 1 20 ++ clicked .revoke 2 30

end Scenario

/-- The first revocation is reported, and the connection is revoked. -/
theorem first_revocation_done :
    AtTarget ((Scenario.withConnection .active).after Scenario.ports
      (Scenario.clicked .revoke 0 10)).world.store (Scenario.command .revoke) := by
  have hlatest : ∃ process ∈ ((Scenario.withConnection .active).after Scenario.ports
      (Scenario.clicked .revoke 0 10)).processes.getLast?,
      process.request = .managePlatformConnectionLifecycle (Scenario.command .revoke) ∧
        returnsConnection process = true ∧ process.startedAt = 0 := by decide +kernel
  obtain ⟨process, hlatest, hrequest, hreturns, hstarted⟩ := hlatest
  have hiff := returned_done_iff (by decide +kernel) ⟨hlatest, hrequest, rfl, hreturns⟩
  rw [hstarted] at hiff
  have hnew : ∀ record ∈ ((Scenario.withConnection .active).idle.storeAt
      (Request.program Scenario.ports) (Scenario.clicked .revoke 0 10)
        0).tables.lifecycleIdempotency, False := by decide +kernel
  refine hiff.mpr ?_
  rintro ⟨record, hrecord, _⟩
  exact absurd hrecord (hnew record)

/-- The second revocation is reported, and the connection is active. -/
theorem second_revocation_not_done :
    System.Serial (Request.program Scenario.ports) (Scenario.withConnection .active).idle
        Scenario.revokedAgain ∧
      ∃ process, JustReturned ((Scenario.withConnection .active).after Scenario.ports
          Scenario.revokedAgain) process (Scenario.command .revoke) ∧
        ¬ AtTarget ((Scenario.withConnection .active).after Scenario.ports
          Scenario.revokedAgain).world.store (Scenario.command .revoke) := by
  have hlatest : ∃ process ∈ ((Scenario.withConnection .active).after Scenario.ports
      Scenario.revokedAgain).processes.getLast?,
      process.request = .managePlatformConnectionLifecycle (Scenario.command .revoke) ∧
        returnsConnection process = true := by decide +kernel
  obtain ⟨process, hlatest, hrequest, hreturns⟩ := hlatest
  have hactive : ∀ row ∈ ((Scenario.withConnection .active).after Scenario.ports
      Scenario.revokedAgain).world.store.tables.platformConnections,
      row.status = .active := by decide +kernel
  refine ⟨by decide +kernel, process, ⟨hlatest, hrequest, rfl, hreturns⟩, ?_⟩
  rintro ⟨row, hrow, _, hstatus⟩
  rw [hactive row hrow] at hstatus
  cases hstatus

end MuxivoConsole
