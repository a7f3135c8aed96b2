/-
The bounded readers: rows of one organization in the order of their identifiers, from a
cursor on.
-/
import MuxivoConsole.Paging.Keyset
import MuxivoConsole.Persistence.Readers
import Mathlib.Order.OrderDual
import Mathlib.Data.Fintype.Order

namespace MuxivoConsole

open Paging Relational

namespace UUID

theorem toNat_int_injective : Function.Injective fun id : UUID => id.int.toNat := by
  intro first second heq
  cases first
  cases second
  exact congrArg UUID.mk (BitVec.eq_of_toNat_eq heq)

/-- The order of the database: that of the 128-bit numbers. -/
instance : LinearOrder UUID :=
  LinearOrder.lift' (fun id : UUID => id.int.toNat) toNat_int_injective

instance : Finite UUID := by
  have hfinite : Finite (Fin (2 ^ 128)) := inferInstance
  exact Finite.of_injective (fun id : UUID => id.int.toFin) fun first second heq => by
    cases first
    cases second
    exact congrArg UUID.mk (BitVec.toFin_inj.mp heq)

end UUID

/-- What the browser is shown of an audit event. -/
structure AuditLogEntry where
  id : UUID
  correlationId : UUID
  actorId : Option UUID
  action : String
  resourceType : String
  resourceId : Option String
  result : AuditResult
  deriving DecidableEq

/-- `AuditLogEntry(...)` of a stored event -/
def auditLogEntry (record : AuditEvent) : AuditLogEntry where
  id := record.id
  correlationId := record.correlationId
  actorId := record.actorId
  action := record.action
  resourceType := record.resourceType
  resourceId := record.resourceId
  result := record.result

namespace Database

/-- `platform_connections` of one organization -/
def connectionRows (database : Database) (organizationId : UUID) :
    List PlatformConnectionRecord :=
  database.tables.platformConnections.filter (·.organizationId == organizationId)

/-- `SqlAlchemyPlatformConnectionReader.list_for_organization` -/
def connectionsForOrganization (database : Database) (organizationId : UUID)
    (afterId : Option UUID) (limit : Nat) : List PlatformConnection :=
  let records := window PlatformConnectionRecord.id (database.connectionRows organizationId)
    afterId limit
  -- a `ValueError` of a constructor skips the record
  records.filterMap connectionFromRecord

/-- `audit_events` of one organization -/
def auditRows (database : Database) (organizationId : UUID) : List AuditEvent :=
  database.tables.auditEvents.filter (·.organizationId == some organizationId)

/-- The order of the audit stream: the latest identifier comes first. -/
def auditKey (record : AuditEvent) : UUIDᵒᵈ :=
  OrderDual.toDual record.id

/-- `SqlAlchemyAuditEventReader.list_for_organization` -/
def auditEventsForOrganization (database : Database) (organizationId : UUID)
    (afterId : Option UUID) (limit : Nat) : List AuditLogEntry :=
  let records := window auditKey (database.auditRows organizationId)
    (afterId.map OrderDual.toDual) limit
  records.map auditLogEntry

theorem connectionRows_unique (database : Database) (organizationId : UUID) :
    UniqueOn PlatformConnectionRecord.id (database.connectionRows organizationId) :=
  UniqueOn.sublist database.constraints.connectionId List.filter_sublist

theorem auditRows_unique (database : Database) (organizationId : UUID) :
    UniqueOn auditKey (database.auditRows organizationId) :=
  UniqueOn.sublist database.constraints.auditEventId List.filter_sublist

end Database

end MuxivoConsole
