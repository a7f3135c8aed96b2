/-
Lifecycle rules for the platform connections of an organization: the
transition table, the user's actions and the decisions of a platform probe.
-/
import MuxivoConsole.PythonValues

namespace MuxivoConsole

inductive Platform where
  | discord
  | twitch
  | telegram
  deriving DecidableEq

instance : StrEnum Platform where
  members := [.discord, .twitch, .telegram]
  value
    | .discord => "discord"
    | .twitch => "twitch"
    | .telegram => "telegram"
  complete := by rintro ⟨⟩ <;> decide
  distinct := by decide

/-- The capability keys requested by a connection of a platform. -/
def capabilityKeysForPlatform : Platform → List String
  | .discord => ["discord.guild.read", "discord.guild.manage"]
  | .twitch => ["twitch.channel.read", "twitch.channel.manage"]
  | .telegram => ["telegram.chat.read", "telegram.chat.manage"]

inductive ConnectionStatus where
  | pending
  | active
  | degraded
  | reauthRequired
  | disconnected
  deriving DecidableEq

instance : StrEnum ConnectionStatus where
  members := [.pending, .active, .degraded, .reauthRequired, .disconnected]
  value
    | .pending => "pending"
    | .active => "active"
    | .degraded => "degraded"
    | .reauthRequired => "reauth_required"
    | .disconnected => "disconnected"
  complete := by rintro ⟨⟩ <;> decide
  distinct := by decide

/-- Why a connection has its state. -/
inductive ConnectionStatusReason where
  | initialPending
  | healthy
  | preflightFailed
  | tokenExpired
  | scopesMissing
  | platformUnreachable
  | resourceRemoved
  | reauthorized
  | revoked
  | disconnected
  deriving DecidableEq

instance : StrEnum ConnectionStatusReason where
  members := [.initialPending, .healthy, .preflightFailed, .tokenExpired, .scopesMissing,
    .platformUnreachable, .resourceRemoved, .reauthorized, .revoked, .disconnected]
  value
    | .initialPending => "initial_pending"
    | .healthy => "healthy"
    | .preflightFailed => "preflight_failed"
    | .tokenExpired => "token_expired"
    | .scopesMissing => "scopes_missing"
    | .platformUnreachable => "platform_unreachable"
    | .resourceRemoved => "resource_removed"
    | .reauthorized => "reauthorized"
    | .revoked => "revoked"
    | .disconnected => "disconnected"
  complete := by rintro ⟨⟩ <;> decide
  distinct := by decide

/-- `_ALLOWED_TRANSITIONS` -/
def allowedTransitions : ConnectionStatus → List ConnectionStatus
  | .pending => [.active, .degraded, .reauthRequired, .disconnected]
  | .active => [.degraded, .reauthRequired, .disconnected]
  | .degraded => [.active, .reauthRequired, .disconnected]
  | .reauthRequired => [.active, .disconnected]
  | .disconnected => []

structure PlatformConnectionFields where
  id : UUID
  organizationId : UUID
  platform : Platform
  externalResourceId : String
  status : ConnectionStatus
  statusReason : Option ConnectionStatusReason := none
  grantedCapabilities : List String := []
  deriving DecidableEq

def PlatformConnectionFields.postInit (connection : PlatformConnectionFields) :
    Option String :=
  if isBlank connection.externalResourceId || connection.externalResourceId.length > 255 then
    some "External resource identifier must contain 1 to 255 characters."
  else if connection.grantedCapabilities.any fun capability =>
      isBlank capability || capability.length > 128 then
    some "Connection capability keys must contain 1 to 128 characters."
  else if ¬ connection.grantedCapabilities.Nodup then
    some "Connection capability keys must be unique."
  else none

/-- Ownership record for one platform resource of an organization. -/
abbrev PlatformConnection := Validated PlatformConnectionFields.postInit

/-- Status and reason play no part in the validity of a connection. -/
theorem PlatformConnectionFields.postInit_status (connection : PlatformConnectionFields)
    (status : ConnectionStatus) (reason : Option ConnectionStatusReason) :
    { connection with status := status, statusReason := reason }.postInit =
      connection.postInit :=
  rfl

theorem PlatformConnectionFields.postInit_no_capabilities
    {connection : PlatformConnectionFields} (haccepted : connection.postInit = none) :
    { connection with grantedCapabilities := [] }.postInit = none := by
  unfold postInit at haccepted ⊢
  split at haccepted
  · cases haccepted
  · rename_i hid
    simp only [Bool.not_eq_true] at hid
    simp [hid]

namespace PlatformConnection

/-- The connection with another status and reason. -/
def withStatus (connection : PlatformConnection) (status : ConnectionStatus)
    (reason : Option ConnectionStatusReason) : PlatformConnection :=
  ⟨{ connection.fields with status := status, statusReason := reason }, by
    rw [PlatformConnectionFields.postInit_status]
    exact connection.accepted⟩

def transitionTo (connection : PlatformConnection) (target : ConnectionStatus)
    (reason : Option ConnectionStatusReason) : Except String PlatformConnection :=
  if target ∈ allowedTransitions connection.fields.status then
    .ok (connection.withStatus target reason)
  else
    .error ("Cannot transition connection from " ++ StrEnum.value connection.fields.status ++
      " to " ++ StrEnum.value target ++ ".")

theorem transitionTo_eq_ok {connection updated : PlatformConnection}
    {target : ConnectionStatus} {reason : Option ConnectionStatusReason} :
    connection.transitionTo target reason = .ok updated ↔
      target ∈ allowedTransitions connection.fields.status ∧
        updated = connection.withStatus target reason := by
  unfold transitionTo
  constructor
  · intro htransition
    split at htransition
    · rename_i hallowed
      cases htransition
      exact ⟨hallowed, rfl⟩
    · cases htransition
  · rintro ⟨hallowed, rfl⟩
    rw [if_pos hallowed]

end PlatformConnection

/-- A status is always left for another one. -/
theorem not_mem_allowedTransitions_self (status : ConnectionStatus) :
    status ∉ allowedTransitions status := by
  cases status <;> decide

/-- Nothing leads back to `PENDING`. -/
theorem pending_not_mem_allowedTransitions (status : ConnectionStatus) :
    ConnectionStatus.pending ∉ allowedTransitions status := by
  cases status <;> decide

/-- What a user may ask for a connection. -/
inductive PlatformConnectionLifecycleAction where
  | reauthorize
  | revoke
  | disconnect
  deriving DecidableEq

instance : StrEnum PlatformConnectionLifecycleAction where
  members := [.reauthorize, .revoke, .disconnect]
  value
    | .reauthorize => "reauthorize"
    | .revoke => "revoke"
    | .disconnect => "disconnect"
  complete := by rintro ⟨⟩ <;> decide
  distinct := by decide

namespace PlatformConnectionLifecycleAction

def targetStatus : PlatformConnectionLifecycleAction → ConnectionStatus
  | .reauthorize => .active
  | .revoke => .reauthRequired
  | .disconnect => .disconnected

def auditAction (action : PlatformConnectionLifecycleAction) : String :=
  "platform_connection." ++ StrEnum.value action

def statusReason : PlatformConnectionLifecycleAction → ConnectionStatusReason
  | .reauthorize => .reauthorized
  | .revoke => .revoked
  | .disconnect => .disconnected

/-- The target status determines the action. -/
theorem targetStatus_injective {first second : PlatformConnectionLifecycleAction}
    (htarget : first.targetStatus = second.targetStatus) : first = second := by
  cases first <;> cases second <;> first | rfl | exact nomatch htarget

end PlatformConnectionLifecycleAction

inductive ConnectionReconciliationReason where
  | healthy
  | preflightFailed
  | tokenExpired
  | scopesMissing
  | platformUnreachable
  | resourceRemoved
  deriving DecidableEq

/-- `ConnectionStatusReason(reason.value)`: the two enumerations share these
texts. -/
def ConnectionReconciliationReason.statusReason :
    ConnectionReconciliationReason → ConnectionStatusReason
  | .healthy => .healthy
  | .preflightFailed => .preflightFailed
  | .tokenExpired => .tokenExpired
  | .scopesMissing => .scopesMissing
  | .platformUnreachable => .platformUnreachable
  | .resourceRemoved => .resourceRemoved

/-- `_ALLOWED_TARGET_STATUSES` -/
def allowedTargetStatuses : ConnectionReconciliationReason → List ConnectionStatus
  | .healthy => [.pending, .active, .degraded]
  | .preflightFailed => [.pending, .degraded]
  | .tokenExpired => [.reauthRequired]
  | .scopesMissing => [.reauthRequired]
  | .platformUnreachable => [.degraded]
  | .resourceRemoved => [.disconnected]

/-- What a platform probe reports; the reason fits the target status. -/
structure ConnectionReconciliationDecision where
  targetStatus : ConnectionStatus
  reason : ConnectionReconciliationReason
  admissible : targetStatus ∈ allowedTargetStatuses reason
  deriving DecidableEq

/-- Only a healthy probe asks for `ACTIVE`. -/
theorem ConnectionReconciliationDecision.healthy_of_active
    {decision : ConnectionReconciliationDecision}
    (hactive : decision.targetStatus = .active) : decision.reason = .healthy := by
  have hadmissible := decision.admissible
  rw [hactive] at hadmissible
  cases hreason : decision.reason <;> rw [hreason] at hadmissible <;>
    first | rfl | exact absurd hadmissible (by decide)

/-- The decision taken when the platform's Control API cannot be reached. -/
def platformUnreachable : ConnectionReconciliationDecision where
  targetStatus := .degraded
  reason := .platformUnreachable
  admissible := by decide

/-- Previously persisted result for one retry key; the stored action is one
of the three, so it is never blank. -/
structure PlatformConnectionLifecycleIdempotencyResult where
  organizationId : UUID
  connectionId : UUID
  action : PlatformConnectionLifecycleAction
  resultStatus : ConnectionStatus
  resultReason : Option ConnectionStatusReason
  deriving DecidableEq

end MuxivoConsole
