/-
The parsers of what the Discord Control API answers.  Each looks at the shape of the payload first
and then reads it inside a `try` whose handler knows `KeyError`, `TypeError` and `ValueError`;
every other exception of the body escapes.
-/
import MuxivoConsole.Domain.PlatformSummaries
import MuxivoConsole.Json.Conversions

namespace MuxivoConsole.Control

open Json Mapping Text

/-- What a parser raises. -/
inductive ControlException where
  /-- `PlatformControlUnavailableError` -/
  | unavailable (message : String)
  | escaped (error : PythonError)
  deriving DecidableEq

/-- The classes of `except (KeyError, TypeError, ValueError)` -/
def isHandled : PythonError → Bool
  | .keyError => true
  | .typeError => true
  | .valueError => true
  | _ => false

/-- A body under a handler for some classes. -/
def handled {α : Type} (classes : PythonError → Bool) (message : String) (body : Attempt α) :
    Except ControlException α :=
  match body with
  | .ok value => .ok value
  | .error error => .error (if classes error then .unavailable message else .escaped error)

/-- A parser: the shape of the payload, and the body for payloads of this shape. -/
def parser {α σ : Type} (shape : Option σ) (mismatch message : String) (body : σ → Attempt α)
    (classes : PythonError → Bool := isHandled) : Except ControlException α :=
  match shape with
  | none => .error (.unavailable mismatch)
  | some payload => handled classes message (body payload)

/-- The `ValueError` of a constructor. -/
def constructed {α : Type} (result : Except String α) : Attempt α :=
  match result with
  | .ok value => .ok value
  | .error _ => .error .valueError

/-- `Enum(value)` -/
def enumValue (α : Type) [StrEnum α] : Value → Attempt α
  | .string codes => orRaise .valueError (StrEnum.parseCodes? codes)
  | _ => .error .valueError

/-- `payload.get(key)` of an object -/
def memberOrNull (members : Members) (key : String) : Value :=
  (member? members key).getD .null

/-- `isinstance(payload, dict) and isinstance(payload.get(key), dict)` -/
def objectAt? (payload : Value) (key : String) : Option Members :=
  payload.object?.bind fun members => (memberOrNull members key).object?

/-- `isinstance(payload, dict) and isinstance(payload.get(key), list)` -/
def arrayAt? (payload : Value) (key : String) : Option (List Value) :=
  payload.object?.bind fun members => (memberOrNull members key).array?

/-- `members[key]` -/
def item (members : Members) (key : String) : Attempt Value :=
  orRaise .keyError (member? members key)

/-- A value that has to be `None` or of a kind, as the check that raises a `ValueError` leaves
it. -/
def optional {α : Type} (kind : Value → Option α) (value : Value) : Attempt (Option α) :=
  match value with
  | .null => .ok none
  | value => (orRaise .valueError (kind value)).map some

/-- One entry of `items` -/
def discordModule (payload : Value) : Attempt ControlModule := do
  let members ← orRaise .valueError payload.object?
  let key ← orRaise .valueError (memberOrNull members "key").string?
  let displayName ← orRaise .valueError (memberOrNull members "display_name").string?
  let platform ← orRaise .valueError (memberOrNull members "platform").string?
  let capability ← orRaise .valueError (memberOrNull members "capability").string?
  let status ← orRaise .valueError (memberOrNull members "status").string?
  let platform ← enumValue Platform (.string platform)
  let capability ← enumValue ModuleCapability (.string capability)
  let status ← enumValue ModuleStatus (.string status)
  let result ← constructed (Validated.make ControlModuleFields.postInit
    ⟨key, displayName, platform, capability, status⟩)
  require (platform = .discord)
  return result

/-- `_parse_discord_modules` -/
def parseDiscordModules (payload : Value) : Except ControlException (List ControlModule) :=
  parser (arrayAt? payload "items") "Discord Control API returned an invalid module payload."
    "Discord Control API returned an invalid module." fun items => items.mapM discordModule

/-- What the key of a health signal needs to know about characters. -/
structure CharacterTables where
  isAlnum : Nat → Bool
  lower : Nat → Str

/-- `_health_signal_key` -/
def healthSignalKey (tables : CharacterTables) (name : Str) : Str :=
  let slug := name.flatMap fun code => if tables.isAlnum code then tables.lower code else [45]
  codesOf "discord." ++ (slug.dropWhile (· == 45)).rdropWhile (· == 45)

/-- One entry of `signals` -/
def discordSignal (tables : CharacterTables) (payload : Value) : Attempt PlatformSignal := do
  let members ← orRaise .valueError payload.object?
  let name ← item members "name"
  let value ← item members "value"
  let status ← item members "status"
  let name ← orRaise .valueError name.string?
  let value ← orRaise .valueError value.string?
  let status ← orRaise .valueError status.string?
  let latencyMs ← optional Value.int? (memberOrNull members "latency_ms")
  let status ← enumValue SignalStatus (.string status)
  constructed (Validated.make PlatformSignalFields.postInit
    ⟨healthSignalKey tables name, name, value, status, latencyMs⟩)

/-- `_parse_discord_health`: the signals of the Discord platform -/
def parseDiscordHealth (tables : CharacterTables) (payload : Value) :
    Except ControlException (List PlatformSignal) :=
  parser (arrayAt? payload "signals") "Discord Control API returned an invalid health payload."
    "Discord Control API returned an invalid health signal."
    fun signals => signals.mapM (discordSignal tables)

/-- The constructor of a decision. -/
def reconciliationDecision (targetStatus : ConnectionStatus)
    (reason : ConnectionReconciliationReason) : Attempt ConnectionReconciliationDecision :=
  if admissible : targetStatus ∈ allowedTargetStatuses reason then
    .ok ⟨targetStatus, reason, admissible⟩
  else .error .valueError

/-- `_parse_connection_reconciliation_decision` -/
def parseConnectionReconciliationDecision (payload : Value) :
    Except ControlException ConnectionReconciliationDecision :=
  parser payload.object?
    "Discord Control API returned an invalid connection reconciliation payload."
    "Discord Control API returned an invalid connection reconciliation decision."
    fun members => do
      let targetStatus ← item members "target_status"
      let reason ← item members "reason"
      let targetStatus ← orRaise .valueError targetStatus.string?
      let reason ← orRaise .valueError reason.string?
      let targetStatus ← enumValue ConnectionStatus (.string targetStatus)
      let reason ← enumValue ConnectionReconciliationReason (.string reason)
      reconciliationDecision targetStatus reason

/-- `_parse_discord_dashboard` -/
def parseDiscordDashboard (payload : Value) : Except ControlException PlatformDashboardSummary :=
  parser (objectAt? payload "metrics") "Discord Control API returned an invalid dashboard payload."
    "Discord Control API returned an invalid dashboard summary." fun metrics => do
      let messagesToday ← item metrics "messages_today"
      let aiFlaggedToday ← item metrics "ai_flagged_today"
      let creatorSources ← item metrics "creator_sources"
      let messagesToday ← orRaise .valueError messagesToday.int?
      let aiFlaggedToday ← orRaise .valueError aiFlaggedToday.int?
      let creatorSources ← orRaise .valueError creatorSources.int?
      let latency ← optional Value.int? (memberOrNull metrics "bot_latency_ms")
      constructed (Validated.make PlatformDashboardSummaryFields.postInit
        ⟨.discord, messagesToday, aiFlaggedToday, creatorSources, latency⟩)

/-- `_parse_discord_server_statistics` -/
def parseDiscordServerStatistics (payload : Value) :
    Except ControlException PlatformServerStatistics :=
  parser (objectAt? payload "summary")
    "Discord Control API returned an invalid server statistics payload."
    "Discord Control API returned invalid aggregate server statistics." fun summary => do
      let periodDays ← item summary "period_days"
      let totalMessages ← item summary "total_messages"
      let activeUsers ← item summary "active_users"
      let activeChannels ← item summary "active_channels"
      let currentMemberCount ← item summary "current_member_count"
      let totalVoiceMinutes ← item summary "total_voice_minutes"
      let joins ← item summary "joins"
      let leaves ← item summary "leaves"
      let moderationEvents ← item summary "moderation_events"
      let periodDays ← orRaise .valueError periodDays.int?
      let totalMessages ← orRaise .valueError totalMessages.int?
      let activeUsers ← orRaise .valueError activeUsers.int?
      let activeChannels ← orRaise .valueError activeChannels.int?
      let currentMemberCount ← orRaise .valueError currentMemberCount.int?
      let totalVoiceMinutes ← orRaise .valueError totalVoiceMinutes.int?
      let joins ← orRaise .valueError joins.int?
      let leaves ← orRaise .valueError leaves.int?
      let moderationEvents ← orRaise .valueError moderationEvents.int?
      constructed (Validated.make PlatformServerStatisticsFields.postInit
        ⟨.discord, periodDays, totalMessages, activeUsers, activeChannels, currentMemberCount,
          totalVoiceMinutes, joins, leaves, moderationEvents⟩)

/-- A text that is stripped by a constructor, and must not be blank. -/
def stripped (value : Value) : Attempt { text : Str // isBlankStr text = false } :=
  match value with
  | .string text =>
      if solid : isBlankStr text = false then .ok ⟨text, solid⟩ else .error .valueError
  | _ => .error .attributeError

/-- One entry of `items`; entries that are no objects are left out. -/
def auditTimelineEvent (members : Members) : Attempt PlatformAuditTimelineEvent := do
  let eventType ← item members "event_type"
  let occurredAt ← item members "occurred_at"
  let ⟨eventType, typed⟩ ← stripped eventType
  let ⟨occurredAt, dated⟩ ← stripped occurredAt
  return ⟨eventType, occurredAt, typed, dated⟩

/-- `_parse_discord_audit_timeline` -/
def parseDiscordAuditTimeline (payload : Value) : Except ControlException PlatformAuditTimeline :=
  parser (objectAt? payload "timeline")
    "Discord Control API returned an invalid audit timeline payload."
    "Discord Control API returned invalid sanitized audit timeline data." fun timeline => do
      let items ← item timeline "items"
      let limit ← item timeline "limit"
      let items ← orRaise .valueError items.array?
      let limit ← orRaise .valueError limit.int?
      let events ← (items.filterMap Value.object?).mapM auditTimelineEvent
      require (events.length = items.length)
      constructed (Validated.make PlatformAuditTimelineFields.postInit ⟨.discord, events, limit⟩)

/-- One entry of `retention` -/
def retentionEntry (entry : Str × Value) : Attempt (Str × ℤ) := do
  let days ← orRaise .valueError entry.2.int?
  return (entry.1, days)

/-- `_parse_discord_bot_settings` -/
def parseDiscordBotSettings (payload : Value) : Except ControlException PlatformBotSettings :=
  parser (objectAt? payload "settings")
    "Discord Control API returned an invalid bot settings payload."
    "Discord Control API returned invalid bot settings." fun settings => do
      let tier ← item settings "subscription_tier"
      let enabled ← item settings "activity_rotation_enabled"
      let interval ← item settings "activity_rotation_interval_seconds"
      let retention ← item settings "retention"
      let tier ← orRaise .valueError tier.string?
      let enabled ← orRaise .valueError enabled.bool?
      let interval ← orRaise .valueError interval.int?
      let retention ← orRaise .valueError retention.object?
      let days ← retention.mapM retentionEntry
      constructed (Validated.make PlatformBotSettingsFields.postInit
        ⟨.discord, tier, enabled, interval, days.mergeSort fun first second => first.1 ≤ second.1⟩)

/-- `value or 0` -/
def orZero (value : Value) : Value :=
  if value.truthy then value else .int 0

/-- One entry of `sources` -/
def integrationSource (printable : Printable) (source : Value) :
    Attempt IntegrationSourceCount := do
  let platform ← (← source.subscript "platform").str printable
  let total ← (← source.subscript "count").toInt
  let active ← (orZero (← source.subscript "active_count")).toInt
  constructed (Validated.make IntegrationSourceCountFields.postInit ⟨platform, total, active⟩)

/-- `_parse_discord_integrations` -/
def parseDiscordIntegrations (printable : Printable) (payload : Value) :
    Except ControlException PlatformIntegrations :=
  handled isHandled "Discord Control API returned invalid integrations." do
    let data ← payload.subscript "integrations"
    let creator ← data.subscript "creator_platforms"
    let sources ← (← (← creator.subscript "sources").iterate).mapM (integrationSource printable)
    let discordBot ← (← (← data.subscript "discord_bot").subscript "status").str printable
    let creatorStatus ← (← creator.subscript "status").str printable
    let interval ← (← creator.subscript "poll_interval_seconds").toInt
    let muxivoCore ← (← (← data.subscript "muxivo_core").subscript "status").str printable
    let database ← (← (← data.subscript "database").subscript "status").str printable
    constructed (Validated.make PlatformIntegrationsFields.postInit
      ⟨.discord, discordBot, creatorStatus, interval, sources, muxivoCore, database⟩)

/-- One entry of `items`; entries that are no objects are left out. -/
def platformChannel (members : Members) : Attempt PlatformChannel := do
  let id ← item members "id"
  let name ← item members "name"
  let kind ← enumValue ChannelKind (← item members "kind")
  let ⟨id, identified⟩ ← stripped id
  let ⟨name, named⟩ ← stripped name
  return ⟨id, name, kind, identified, named⟩

/-- `_parse_discord_channel_catalog`: the channels of the Discord platform -/
def parseDiscordChannelCatalog (payload : Value) : Except ControlException (List PlatformChannel) :=
  parser (arrayAt? payload "items")
    "Discord Control API returned an invalid channel catalog payload."
    "Discord Control API returned an invalid channel catalog." fun items => do
      let channels ← (items.filterMap Value.object?).mapM platformChannel
      require (channels.length = items.length)
      return channels

/-- One entry of `items` -/
def channelAssignment (entry : Str × Value) : Attempt (ChannelPurpose × Value) := do
  let purpose ← enumValue ChannelPurpose (.string entry.1)
  return (purpose, entry.2)

/-- The check that every identifier is a text. -/
def assignedText (entry : ChannelPurpose × Value) : Attempt (ChannelPurpose × Str) := do
  let channelId ← orRaise .valueError entry.2.string?
  return (entry.1, channelId)

/-- The body of `_parse_discord_channel_purposes` -/
def channelPurposes (items : Members) : Attempt PlatformChannelPurposes := do
  let assignments ← items.mapM channelAssignment
  let texts ← (Dict.ofList assignments).items.mapM assignedText
  constructed (Validated.make PlatformChannelPurposesFields.postInit ⟨.discord, Dict.ofList texts⟩)

/-- `_parse_discord_channel_purposes`, whose handler leaves out `KeyError` -/
def parseDiscordChannelPurposes (payload : Value) :
    Except ControlException PlatformChannelPurposes :=
  parser (objectAt? payload "items")
    "Discord Control API returned an invalid channel purposes payload."
    "Discord Control API returned invalid channel purposes." channelPurposes
    fun error => error == .typeError || error == .valueError

/-- `_parse_discord_ai_moderation_summary` -/
def parseDiscordAiModerationSummary (printable : Printable) (payload : Value) :
    Except ControlException PlatformAiModerationSummary :=
  parser (objectAt? payload "summary")
    "Discord Control API returned an invalid AI moderation summary."
    "Discord Control API returned invalid AI moderation summary values." fun summary => do
      let enforcementMode ← (← item summary "enforcement_mode").str printable
      let testMode ← item summary "test_mode"
      let isDefaultPolicy ← item summary "is_default_policy"
      let coveredChannelCount ← (← item summary "covered_channel_count").toInt
      let logChannelConfigured ← item summary "log_channel_configured"
      let labelCount ← (← item summary "label_count").toInt
      let blacklistWordCount ← (← item summary "blacklist_word_count").toInt
      let allowedDomainCount ← (← item summary "allowed_domain_count").toInt
      let automatedTimeoutEnabled ← item summary "automated_timeout_enabled"
      let automatedKickEnabled ← item summary "automated_kick_enabled"
      let automatedBanEnabled ← item summary "automated_ban_enabled"
      constructed (Validated.make PlatformAiModerationSummaryFields.postInit
        { platform := .discord
          enforcementMode := enforcementMode
          testMode := testMode.truthy
          isDefaultPolicy := isDefaultPolicy.truthy
          coveredChannelCount := coveredChannelCount
          logChannelConfigured := logChannelConfigured.truthy
          labelCount := labelCount
          blacklistWordCount := blacklistWordCount
          allowedDomainCount := allowedDomainCount
          automatedTimeoutEnabled := automatedTimeoutEnabled.truthy
          automatedKickEnabled := automatedKickEnabled.truthy
          automatedBanEnabled := automatedBanEnabled.truthy })

/-- `_parse_discord_welcome_settings` -/
def parseDiscordWelcomeSettings (payload : Value) :
    Except ControlException PlatformWelcomeSettings :=
  parser (objectAt? payload "settings")
    "Discord Control API returned an invalid welcome settings payload."
    "Discord Control API returned invalid welcome settings." fun settings => do
      let title ← item settings "title"
      let description ← item settings "description"
      let color ← item settings "color"
      let isEnabled ← item settings "is_enabled"
      let title ← orRaise .valueError title.string?
      let description ← orRaise .valueError description.string?
      let color ← orRaise .valueError color.int?
      let isEnabled ← orRaise .valueError isEnabled.bool?
      let thumbnailUrl ← optional Value.string? (memberOrNull settings "thumbnail_url")
      let footerText ← optional Value.string? (memberOrNull settings "footer_text")
      let footerIconUrl ← optional Value.string? (memberOrNull settings "footer_icon_url")
      let rulesChannelId ← optional Value.string? (memberOrNull settings "rules_channel_id")
      let rolesChannelId ← optional Value.string? (memberOrNull settings "roles_channel_id")
      constructed (Validated.make PlatformWelcomeSettingsFields.postInit
        { platform := .discord
          title := title
          description := description
          thumbnailUrl := thumbnailUrl
          footerText := footerText
          footerIconUrl := footerIconUrl
          color := color
          isEnabled := isEnabled
          rulesChannelId := rulesChannelId
          rolesChannelId := rolesChannelId })

end MuxivoConsole.Control
