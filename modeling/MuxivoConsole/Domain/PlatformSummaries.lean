/-
The browser-safe values that the answers of a platform are turned into, with the checks of their
constructors.  Their texts may hold lone surrogates, as those of a decoded answer.
-/
import MuxivoConsole.Domain.ModerationPolicies

namespace MuxivoConsole.Control

open Mapping Text

/-- `not text.strip()` -/
def isBlankStr (text : Str) : Bool :=
  text.all isSpaceCode

inductive ModuleCapability where
  | view
  | manage
  deriving DecidableEq

instance : StrEnum ModuleCapability where
  members := [.view, .manage]
  value
    | .view => "view"
    | .manage => "manage"
  complete := by rintro ⟨⟩ <;> decide
  distinct := by decide

inductive ModuleStatus where
  | available
  | unavailable
  | requiresReauthorization
  deriving DecidableEq

instance : StrEnum ModuleStatus where
  members := [.available, .unavailable, .requiresReauthorization]
  value
    | .available => "available"
    | .unavailable => "unavailable"
    | .requiresReauthorization => "requires_reauthorization"
  complete := by rintro ⟨⟩ <;> decide
  distinct := by decide

inductive ChannelKind where
  | text
  | voice
  | announcement
  deriving DecidableEq

instance : StrEnum ChannelKind where
  members := [.text, .voice, .announcement]
  value
    | .text => "text"
    | .voice => "voice"
    | .announcement => "announcement"
  complete := by rintro ⟨⟩ <;> decide
  distinct := by decide

inductive ChannelPurpose where
  | welcome
  | memberLog
  | modLog
  | messageLog
  | channelLog
  | streamAnnounce
  | devBlog
  | aiModerationLog
  deriving DecidableEq

instance : StrEnum ChannelPurpose where
  members := [.welcome, .memberLog, .modLog, .messageLog, .channelLog, .streamAnnounce, .devBlog,
    .aiModerationLog]
  value
    | .welcome => "welcome"
    | .memberLog => "member_log"
    | .modLog => "mod_log"
    | .messageLog => "message_log"
    | .channelLog => "channel_log"
    | .streamAnnounce => "stream_announce"
    | .devBlog => "dev_blog"
    | .aiModerationLog => "ai_moderation_log"
  complete := by rintro ⟨⟩ <;> decide
  distinct := by decide

/-- The status of a health signal. -/
inductive SignalStatus where
  | operational
  | degraded
  deriving DecidableEq

instance : StrEnum SignalStatus where
  members := [.operational, .degraded]
  value
    | .operational => "operational"
    | .degraded => "degraded"
  complete := by rintro ⟨⟩ <;> decide
  distinct := by decide

instance : StrEnum ConnectionReconciliationReason where
  members := [.healthy, .preflightFailed, .tokenExpired, .scopesMissing, .platformUnreachable,
    .resourceRemoved]
  value
    | .healthy => "healthy"
    | .preflightFailed => "preflight_failed"
    | .tokenExpired => "token_expired"
    | .scopesMissing => "scopes_missing"
    | .platformUnreachable => "platform_unreachable"
    | .resourceRemoved => "resource_removed"
  complete := by rintro ⟨⟩ <;> decide
  distinct := by decide

structure ControlModuleFields where
  key : Str
  displayName : Str
  platform : Platform
  capability : ModuleCapability
  status : ModuleStatus

def ControlModuleFields.postInit (module : ControlModuleFields) : Option String :=
  if module.key = [] ∨ 46 ∉ module.key then
    some "Module key must be a namespaced, non-empty identifier."
  else if isBlankStr module.displayName then some "Module display name must not be blank."
  else none

abbrev ControlModule := Validated ControlModuleFields.postInit

structure PlatformSignalFields where
  key : Str
  displayName : Str
  value : Str
  status : SignalStatus
  latencyMs : Option ℤ

/-- `HealthSignal.__post_init__` -/
def PlatformSignalFields.postInit (signal : PlatformSignalFields) : Option String :=
  if signal.key = [] || isBlankStr signal.displayName || isBlankStr signal.value then
    some "Health signal fields must be non-empty."
  else if signal.latencyMs.any (· < 0) then some "Health signal latency must not be negative."
  else none

abbrev PlatformSignal := Validated PlatformSignalFields.postInit

structure PlatformDashboardSummaryFields where
  platform : Platform
  messagesToday : ℤ
  aiFlaggedToday : ℤ
  creatorSources : ℤ
  botLatencyMs : Option ℤ

def PlatformDashboardSummaryFields.postInit (summary : PlatformDashboardSummaryFields) :
    Option String :=
  if summary.messagesToday < 0 ∨ summary.aiFlaggedToday < 0 ∨ summary.creatorSources < 0 then
    some "Dashboard counters must not be negative."
  else if summary.botLatencyMs.any (· < 0) then some "Bot latency must not be negative."
  else none

abbrev PlatformDashboardSummary := Validated PlatformDashboardSummaryFields.postInit

structure PlatformServerStatisticsFields where
  platform : Platform
  periodDays : ℤ
  totalMessages : ℤ
  activeUsers : ℤ
  activeChannels : ℤ
  currentMemberCount : ℤ
  totalVoiceMinutes : ℤ
  joins : ℤ
  leaves : ℤ
  moderationEvents : ℤ

def PlatformServerStatisticsFields.postInit (statistics : PlatformServerStatisticsFields) :
    Option String :=
  if statistics.periodDays < 1 ∨ statistics.totalMessages < 0 ∨ statistics.activeUsers < 0 ∨
      statistics.activeChannels < 0 ∨ statistics.currentMemberCount < 0 ∨
      statistics.totalVoiceMinutes < 0 ∨ statistics.joins < 0 ∨ statistics.leaves < 0 ∨
      statistics.moderationEvents < 0 then
    some "Server statistics must contain non-negative aggregate counts."
  else none

abbrev PlatformServerStatistics := Validated PlatformServerStatisticsFields.postInit

structure PlatformAuditTimelineEvent where
  eventType : Str
  occurredAt : Str
  typed : isBlankStr eventType = false
  dated : isBlankStr occurredAt = false

structure PlatformAuditTimelineFields where
  platform : Platform
  events : List PlatformAuditTimelineEvent
  limit : ℤ

def PlatformAuditTimelineFields.postInit (timeline : PlatformAuditTimelineFields) :
    Option String :=
  if ¬ (1 ≤ timeline.limit ∧ timeline.limit ≤ 100) ∨ timeline.limit < timeline.events.length then
    some "Audit timeline limit is invalid."
  else none

abbrev PlatformAuditTimeline := Validated PlatformAuditTimelineFields.postInit

structure PlatformBotSettingsFields where
  platform : Platform
  subscriptionTier : Str
  activityRotationEnabled : Bool
  activityRotationIntervalSeconds : ℤ
  retentionDays : List (Str × ℤ)

def PlatformBotSettingsFields.postInit (settings : PlatformBotSettingsFields) : Option String :=
  if isBlankStr settings.subscriptionTier then some "Subscription tier must not be blank."
  else if settings.activityRotationIntervalSeconds < 1 then
    some "Activity rotation interval must be positive."
  else if settings.retentionDays.any fun entry => isBlankStr entry.1 || entry.2 < 0 then
    some "Retention settings must have non-blank keys and non-negative days."
  else none

abbrev PlatformBotSettings := Validated PlatformBotSettingsFields.postInit

structure IntegrationSourceCountFields where
  platform : Str
  total : ℤ
  active : ℤ

def IntegrationSourceCountFields.postInit (source : IntegrationSourceCountFields) :
    Option String :=
  if isBlankStr source.platform || source.total < 0 || source.active < 0 ||
      source.active > source.total then
    some "Integration source counts are invalid."
  else none

abbrev IntegrationSourceCount := Validated IntegrationSourceCountFields.postInit

structure PlatformIntegrationsFields where
  platform : Platform
  discordBotStatus : Str
  creatorPlatformsStatus : Str
  creatorPollIntervalSeconds : ℤ
  creatorSources : List IntegrationSourceCount
  muxivoCoreStatus : Str
  databaseStatus : Str

def PlatformIntegrationsFields.postInit (integrations : PlatformIntegrationsFields) :
    Option String :=
  if integrations.creatorPollIntervalSeconds < 1 then some "Creator poll interval must be positive."
  else if [integrations.discordBotStatus, integrations.creatorPlatformsStatus,
      integrations.muxivoCoreStatus, integrations.databaseStatus].any isBlankStr then
    some "Integration statuses must not be blank."
  else none

abbrev PlatformIntegrations := Validated PlatformIntegrationsFields.postInit

structure PlatformChannel where
  id : Str
  name : Str
  kind : ChannelKind
  identified : isBlankStr id = false
  named : isBlankStr name = false

structure PlatformChannelPurposesFields where
  platform : Platform
  assignments : Dict ChannelPurpose Str

def PlatformChannelPurposesFields.postInit (purposes : PlatformChannelPurposesFields) :
    Option String :=
  if purposes.assignments.items.any fun entry => isBlankStr entry.2 then
    some "Channel purpose assignments must have non-empty channel IDs."
  else none

abbrev PlatformChannelPurposes := Validated PlatformChannelPurposesFields.postInit

structure PlatformAiModerationSummaryFields where
  platform : Platform
  enforcementMode : Str
  testMode : Bool
  isDefaultPolicy : Bool
  coveredChannelCount : ℤ
  logChannelConfigured : Bool
  labelCount : ℤ
  blacklistWordCount : ℤ
  allowedDomainCount : ℤ
  automatedTimeoutEnabled : Bool
  automatedKickEnabled : Bool
  automatedBanEnabled : Bool

def PlatformAiModerationSummaryFields.postInit (summary : PlatformAiModerationSummaryFields) :
    Option String :=
  if isBlankStr summary.enforcementMode then
    some "AI moderation enforcement mode must be non-empty."
  else if summary.coveredChannelCount < 0 ∨ summary.labelCount < 0 ∨
      summary.blacklistWordCount < 0 ∨ summary.allowedDomainCount < 0 then
    some "AI moderation counts must not be negative."
  else none

abbrev PlatformAiModerationSummary := Validated PlatformAiModerationSummaryFields.postInit

structure PlatformWelcomeSettingsFields where
  platform : Platform
  title : Str
  description : Str
  thumbnailUrl : Option Str
  footerText : Option Str
  footerIconUrl : Option Str
  color : ℤ
  isEnabled : Bool
  rulesChannelId : Option Str
  rolesChannelId : Option Str

def PlatformWelcomeSettingsFields.postInit (settings : PlatformWelcomeSettingsFields) :
    Option String :=
  if isBlankStr settings.title || isBlankStr settings.description then
    some "Welcome title and description must be non-empty."
  else if ¬ (0 ≤ settings.color ∧ settings.color ≤ 0xFFFFFF) then
    some "Welcome color must be a 24-bit RGB value."
  else none

abbrev PlatformWelcomeSettings := Validated PlatformWelcomeSettingsFields.postInit

end MuxivoConsole.Control
