/-
Use cases that read a bounded part of an organization: its connections, its audit stream,
and the health of a platform it is connected to.
-/
import MuxivoConsole.Application.Ports
import MuxivoConsole.Interleaving.Alone
import MuxivoConsole.Interleaving.Embedding
import MuxivoConsole.Persistence.Listings

namespace MuxivoConsole

open Interleaving Paging

namespace UseCase

/-- `ListPlatformConnections.execute` -/
def listPlatformConnections (actorId organizationId : UUID) (afterId : Option UUID)
    (limit : Int) : UseCase (Page PlatformConnection UUID) :=
  if ¬ (1 ≤ limit ∧ limit ≤ 100) then
    Execution.raise ⟨.valueError, "Connection list limit must be between 1 and 100."⟩
  else do
    let decision ← authorize {
      actorId
      organizationId
      resource := .platformConnections
      action := .read }
    if !decision.allowed then
      Execution.raise ⟨.accessDenied,
        "The actor is not allowed to view platform connections."⟩
    else
      let results ← Execution.select fun database : Database =>
        database.connectionsForOrganization organizationId afterId (limit + 1).toNat
      pure (cut (·.fields.id) results limit.toNat)

/-- `ListOrganizationAuditEvents.execute` -/
def listOrganizationAuditEvents (actorId organizationId : UUID) (afterId : Option UUID)
    (limit : Int) : UseCase (Page AuditLogEntry UUID) :=
  if ¬ (1 ≤ limit ∧ limit ≤ 100) then
    Execution.raise ⟨.valueError, "Audit event page size must be between 1 and 100."⟩
  else do
    let decision ← authorize {
      actorId
      organizationId
      resource := .auditEvents
      action := .read }
    if !decision.allowed then
      Execution.raise ⟨.accessDenied,
        "The actor is not allowed to view organization audit events."⟩
    else
      let entries ← Execution.select fun database : Database =>
        database.auditEventsForOrganization organizationId afterId (limit + 1).toNat
      pure (cut (·.id) entries limit.toNat)

end UseCase

inductive HealthStatus where
  | operational
  | degraded
  deriving DecidableEq

structure HealthSignal where
  key : String
  displayName : String
  value : String
  status : HealthStatus
  latencyMs : Option Nat
  deriving DecidableEq

structure PlatformHealth where
  platform : Platform
  signals : List HealthSignal
  deriving DecidableEq

inductive HealthCall where
  | console (call : Call)
  /-- `PlatformHealthReader.get_for_organization` of the reader of a platform -/
  | getHealth (platform : Platform) (organizationId actorId correlationId : UUID)
  deriving DecidableEq

def HealthCall.Answer : HealthCall → Type
  | console call => call.Answer
  | getHealth .. => Except Failure PlatformHealth

/-- The Console with the health readers of the platforms. -/
abbrev monitoring : Interface where
  Store := Database
  Write := Write
  apply := Write.apply
  Receipt _ := Unit
  receipt _ _ := ()
  Name := UUID
  Call := HealthCall
  Answer := HealthCall.Answer

def consoleInMonitoring : Embedding console monitoring where
  store := id
  write := id
  receipt _ := id
  name := id
  call := .console
  answer _ := id

abbrev HealthUseCase (α : Type) := Execution monitoring Failure α

namespace HealthUseCase

/-- `connection.status in {ConnectionStatus.ACTIVE, ConnectionStatus.DEGRADED}` of a
connection of the platform -/
def usable (platform : Platform) (connection : PlatformConnection) : Bool :=
  connection.fields.platform == platform &&
    (connection.fields.status == .active || connection.fields.status == .degraded)

/-- `GetPlatformHealth.execute`; `hasReader` tells the keys of `health_readers`. -/
def getPlatformHealth (hasReader : Platform → Bool) (actorId organizationId : UUID)
    (platform : Platform) (correlationId : UUID) : HealthUseCase PlatformHealth := do
  let decision ← (UseCase.authorize {
    actorId
    organizationId
    resource := .controlModules
    action := .read }).embed consoleInMonitoring
  if !decision.allowed then
    Execution.raise ⟨.accessDenied, "The actor is not allowed to view platform health."⟩
  else
    let connections ← Execution.select fun database : Database =>
      database.connectionsForOrganization organizationId none 100
    if !connections.any (usable platform) then
      Execution.raise ⟨.platformHealthUnavailable, "No usable platform connection exists."⟩
    else if !hasReader platform then
      Execution.raise ⟨.platformHealthUnavailable, "No platform health adapter is available."⟩
    else
      let answer : Except Failure PlatformHealth ← @Execution.ask monitoring Failure
        (.getHealth platform organizationId actorId correlationId)
      match answer with
      | .ok health => pure health
      | .error failure => Execution.raise failure

end HealthUseCase

end MuxivoConsole
