/-
Use cases for platform connections: connect a verified resource, apply a
user's lifecycle action, and reconcile stored states with platform probes.
-/
import MuxivoConsole.Application.Ports

namespace MuxivoConsole

open Interleaving

structure ConnectPlatformConnectionCommand where
  actorId : UUID
  organizationId : UUID
  platform : Platform
  externalResourceId : String
  correlationId : UUID
  deriving DecidableEq

structure ManagePlatformConnectionLifecycleCommand where
  actorId : UUID
  organizationId : UUID
  connectionId : UUID
  action : PlatformConnectionLifecycleAction
  correlationId : UUID
  idempotencyKey : Option String := none
  deriving DecidableEq

structure ReconcilePlatformConnectionsCommand where
  systemActorId : UUID
  correlationId : UUID
  limit : Nat := 100
  deriving DecidableEq

structure ReconcilePlatformConnectionsResult where
  inspected : Nat
  changed : Nat
  skipped : Nat
  deriving DecidableEq

namespace UseCase

/-- `SqlAlchemyPlatformConnectionWriter.create` -/
def createConnection (connection : PlatformConnection) (auditEvent : AuditEvent) :
    UseCase Bool :=
  save (Write.createConnection
    { id := connection.fields.id
      organizationId := connection.fields.organizationId
      platform := StrEnum.value connection.fields.platform
      externalResourceId := connection.fields.externalResourceId
      status := connection.fields.status
      statusReason := connection.fields.statusReason.map StrEnum.value
      grantedCapabilities :=
        some (connection.fields.grantedCapabilities.map fun capability =>
          (capability, true)) } auditEvent)

/-- `SqlAlchemyPlatformConnectionWriter.update_status`; the retry result is
stored only when key and action are both present. -/
def updateStatus (connection : PlatformConnection) (auditEvent : AuditEvent)
    (idempotencyKey : Option String)
    (idempotencyAction : Option PlatformConnectionLifecycleAction) : UseCase Bool :=
  save (Write.updateStatus connection.fields.id connection.fields.organizationId
    connection.fields.status connection.fields.statusReason
    (match idempotencyKey, idempotencyAction with
      | some key, some action =>
          some {
            organizationId := connection.fields.organizationId
            idempotencyKey := key
            connectionId := connection.fields.id
            action
            resultStatus := connection.fields.status
            resultReason := connection.fields.statusReason.map StrEnum.value }
      | _, _ => none)
    auditEvent)

/-- `find_idempotent_lifecycle_result` -/
def findIdempotentLifecycleResult (organizationId : UUID) (idempotencyKey : String) :
    UseCase (Option PlatformConnectionLifecycleIdempotencyResult) :=
  Execution.select fun database : Database =>
    database.idempotentLifecycleResult organizationId idempotencyKey

/-- The authorization request shared by the connection use cases. -/
def manageConnections (actorId organizationId : UUID) : AuthorizationRequest where
  actorId := actorId
  organizationId := organizationId
  resource := .platformConnections
  action := .manage

/-- `ConnectPlatformConnection.execute` -/
def connectPlatformConnection (command : ConnectPlatformConnectionCommand) :
    UseCase PlatformConnection := do
  let externalResourceId := strip command.externalResourceId
  let decision ← authorize (manageConnections command.actorId command.organizationId)
  if !decision.allowed then
    Execution.raise ⟨.platformConnectionConnectRejected, "Connection was denied."⟩
  else
    let answer ← verifyConnection command.actorId command.organizationId command.platform
      externalResourceId command.correlationId
    let verified ← orRaise answer
    if !verified then
      Execution.raise ⟨.platformConnectionConnectRejected, "Connection was not verified."⟩
    else
      let id ← newIdentifier
      let connection ← orValueError (Validated.make PlatformConnectionFields.postInit
        { id
          organizationId := command.organizationId
          platform := command.platform
          externalResourceId
          status := .pending
          statusReason := some .initialPending
          grantedCapabilities := capabilityKeysForPlatform command.platform })
      let auditId ← newIdentifier
      let created ← createConnection connection
        { id := auditId
          correlationId := command.correlationId
          actorId := some command.actorId
          organizationId := some command.organizationId
          action := "platform_connection.connect"
          resourceType := "platform_connection"
          resourceId := some connection.fields.id.str
          result := .succeeded }
      if !created then
        Execution.raise ⟨.platformConnectionConnectRejected,
          "Connection could not be created."⟩
      else pure connection

/-- `_normalized_idempotency_key` -/
def normalizedIdempotencyKey (value : Option String) : UseCase (Option String) :=
  match value with
  | none => pure none
  | some value =>
      let normalized := strip value
      if normalized = "" then pure none
      else if normalized.length > 128 then
        Execution.raise ⟨.platformConnectionLifecycleRejected, "Idempotency key is too long."⟩
      else pure (some normalized)

/-- The connection that a replayed retry key answers with: the row as it is
now, with the persisted result in place of its status. -/
def replayed (current : PlatformConnection)
    (result : PlatformConnectionLifecycleIdempotencyResult) : PlatformConnection :=
  ⟨{ (current.withStatus result.resultStatus result.resultReason).fields with
      grantedCapabilities := [] },
    PlatformConnectionFields.postInit_no_capabilities
      (current.withStatus result.resultStatus result.resultReason).accepted⟩

/-- The audit fact of a lifecycle action. -/
def lifecycleAuditEvent (command : ManagePlatformConnectionLifecycleCommand)
    (auditId : UUID) : AuditEvent where
  id := auditId
  correlationId := command.correlationId
  actorId := some command.actorId
  organizationId := some command.organizationId
  action := command.action.auditAction
  resourceType := "platform_connection"
  resourceId := some command.connectionId.str
  result := .succeeded
  named := by cases command.action <;> decide

/-- The part of `ManagePlatformConnectionLifecycle.execute` after the retry
key was not found. -/
def applyLifecycleAction (command : ManagePlatformConnectionLifecycleCommand)
    (idempotencyKey : Option String) : UseCase PlatformConnection := do
  let current ← findConnectionForOrganization command.organizationId command.connectionId
  match current with
  | none =>
      Execution.raise ⟨.platformConnectionLifecycleRejected, "Connection is unavailable."⟩
  | some current =>
      let targetStatus := command.action.targetStatus
      if current.fields.status = targetStatus then pure current
      else
        match current.transitionTo targetStatus (some command.action.statusReason) with
        | .error _ =>
            Execution.raise ⟨.platformConnectionLifecycleRejected,
              "Connection lifecycle transition is invalid."⟩
        | .ok updated => do
            let auditId ← newIdentifier
            let saved ← updateStatus updated (lifecycleAuditEvent command auditId)
              idempotencyKey (idempotencyKey.map fun _ => command.action)
            if !saved then
              Execution.raise ⟨.platformConnectionLifecycleRejected,
                "Connection lifecycle transition could not be saved."⟩
            else pure updated

/-- `ManagePlatformConnectionLifecycle.execute` -/
def managePlatformConnectionLifecycle (command : ManagePlatformConnectionLifecycleCommand) :
    UseCase PlatformConnection := do
  let decision ← authorize (manageConnections command.actorId command.organizationId)
  if !decision.allowed then
    Execution.raise ⟨.platformConnectionLifecycleRejected, "Lifecycle action denied."⟩
  else
    let idempotencyKey ← normalizedIdempotencyKey command.idempotencyKey
    match idempotencyKey with
    | none => applyLifecycleAction command none
    | some key => do
        let idempotentResult ← findIdempotentLifecycleResult command.organizationId key
        match idempotentResult with
        | none => applyLifecycleAction command (some key)
        | some result => do
            let current ←
              findConnectionForOrganization command.organizationId command.connectionId
            match current with
            | none =>
                Execution.raise ⟨.platformConnectionLifecycleRejected,
                  "Lifecycle idempotency key conflicts with another request."⟩
            | some current =>
                if result.connectionId ≠ command.connectionId ∨
                    result.action ≠ command.action then
                  Execution.raise ⟨.platformConnectionLifecycleRejected,
                    "Lifecycle idempotency key conflicts with another request."⟩
                else pure (replayed current result)

/-- `ReconcilePlatformConnections._apply_decision` -/
def applyDecision (command : ReconcilePlatformConnectionsCommand)
    (connection : PlatformConnection) (decision : ConnectionReconciliationDecision) :
    UseCase Bool :=
  if connection.fields.status = .disconnected then pure false
  else if connection.fields.status = decision.targetStatus then pure false
  else
    match connection.transitionTo decision.targetStatus
        (some decision.reason.statusReason) with
    | .error _ => pure false
    | .ok updated => do
        let auditId ← newIdentifier
        updateStatus updated
          { id := auditId
            correlationId := command.correlationId
            actorId := some command.systemActorId
            organizationId := some connection.fields.organizationId
            action := "platform_connection.reconciled"
            resourceType := "platform_connection"
            resourceId := some connection.fields.id.str
            result := .succeeded } none none

/-- Inspect one connection; the answer says whether its state changed. -/
def reconcileConnection (ports : Ports) (command : ReconcilePlatformConnectionsCommand)
    (connection : PlatformConnection) : UseCase Bool :=
  if !ports.hasProbe connection.fields.platform then pure false
  else do
    let answer ← inspectConnection connection command.correlationId
    match answer with
    | .ok decision => applyDecision command connection decision
    | .error failure =>
        if failure.errorClass = .platformControlUnavailable then
          applyDecision command connection platformUnreachable
        else Execution.raise failure

/-- The loop of `ReconcilePlatformConnections.execute`. -/
def reconcileConnections (ports : Ports) (command : ReconcilePlatformConnectionsCommand) :
    List PlatformConnection → ReconcilePlatformConnectionsResult →
      UseCase ReconcilePlatformConnectionsResult
  | [], result => pure result
  | connection :: rest, result => do
      let reconciled ← reconcileConnection ports command connection
      reconcileConnections ports command rest
        { inspected := result.inspected + 1
          changed := if reconciled then result.changed + 1 else result.changed
          skipped := if reconciled then result.skipped else result.skipped + 1 }

/-- `ReconcilePlatformConnections.execute` -/
def reconcilePlatformConnections (ports : Ports)
    (command : ReconcilePlatformConnectionsCommand) :
    UseCase ReconcilePlatformConnectionsResult := do
  let connections ← Execution.select fun database : Database =>
    database.reconcilableConnections command.limit
  reconcileConnections ports command connections ⟨0, 0, 0⟩

end UseCase

end MuxivoConsole
