/-
The wire format of the moderation policy: the payload that is sent to the Discord Control API, with
the excluded identifiers as integers, and the parser of the policy that it answers.
-/
import MuxivoConsole.Infrastructure.DiscordAnswers

namespace MuxivoConsole.Control

open Json Mapping Text

/-- A text constant as a value. -/
def textValue (text : String) : Value :=
  .string (codesOf text)

/-- `_discord_snowflake_or_none` of a text -/
def discordSnowflake (value : Str) : Attempt Value := do
  require (value ≠ [] && value.all isDecimalCode && 1 ≤ value.length && value.length ≤ 20)
  let number ← orRaise .valueError (parseInt? value)
  return .int number

/-- `_discord_snowflakes` -/
def discordSnowflakes (values : List Str) : Attempt Value := do
  let numbers ← values.mapM discordSnowflake
  return .array numbers

def stringList (values : List Str) : Value :=
  .array (values.map Value.string)

def labelRuleMembers (rule : AiModerationLabelRule) : Members :=
  [(codesOf "risk_threshold", .float rule.fields.riskThreshold),
    (codesOf "min_action", textValue (StrEnum.value rule.fields.minAction)),
    (codesOf "max_action", textValue (StrEnum.value rule.fields.maxAction))]

def labelRulePayload (rule : AiModerationLabelRule) : Value :=
  .object (labelRuleMembers rule)

/-- The payload with the identifiers in their new form. -/
def policyPayload (policy : PlatformAiModerationPolicyFields)
    (userIds roleIds channelIds : Value) : Members :=
  [(codesOf "blacklist_words", stringList policy.blacklistWords),
    (codesOf "allowed_domains", stringList policy.allowedDomains),
    (codesOf "labels", .object (policy.labels.mapValues labelRulePayload).items),
    (codesOf "blacklist_action", textValue (StrEnum.value policy.blacklistAction)),
    (codesOf "unapproved_domain_action", textValue (StrEnum.value policy.unapprovedDomainAction)),
    (codesOf "context_window_days", .int policy.contextWindowDays),
    (codesOf "repeat_offender_threshold", .int policy.repeatOffenderThreshold),
    (codesOf "repeat_offender_action", textValue (StrEnum.value policy.repeatOffenderAction)),
    (codesOf "escalation_enabled", .bool policy.escalationEnabled),
    (codesOf "escalation_score_threshold", .float policy.escalationScoreThreshold),
    (codesOf "escalation_half_life_days", .float policy.escalationHalfLifeDays),
    (codesOf "excluded_user_ids", userIds),
    (codesOf "excluded_role_ids", roleIds),
    (codesOf "excluded_channel_ids", channelIds),
    (codesOf "exclude_bots", .bool policy.excludeBots),
    (codesOf "ocr_enabled", .bool policy.ocrEnabled),
    (codesOf "ocr_failure_mode", .string policy.ocrFailureMode),
    (codesOf "ocr_max_gif_frames", .int policy.ocrMaxGifFrames),
    (codesOf "ocr_process_empty_result", .bool policy.ocrProcessEmptyResult),
    (codesOf "test_mode", .bool policy.testMode),
    (codesOf "enforcement_mode", textValue (StrEnum.value policy.enforcementMode)),
    (codesOf "limited_min_confidence", .float policy.limitedMinConfidence),
    (codesOf "limited_hard_rule_labels", stringList policy.limitedHardRuleLabels),
    (codesOf "beta_enforcement_acknowledged", .bool policy.betaEnforcementAcknowledged),
    (codesOf "allow_automated_timeout", .bool policy.allowAutomatedTimeout),
    (codesOf "allow_automated_kick", .bool policy.allowAutomatedKick),
    (codesOf "allow_automated_ban", .bool policy.allowAutomatedBan)]

/-- `_discord_ai_moderation_policy_payload` -/
def discordAiModerationPolicyPayload (policy : PlatformAiModerationPolicy) : Attempt Members := do
  require (policy.fields.platform = .discord)
  let userIds ← discordSnowflakes policy.fields.excludedUserIds
  let roleIds ← discordSnowflakes policy.fields.excludedRoleIds
  let channelIds ← discordSnowflakes policy.fields.excludedChannelIds
  return policyPayload policy.fields userIds roleIds channelIds

/-- `isinstance(value, (str, int))` -/
def isTextOrInt : Value → Bool
  | .string _ => true
  | .int _ => true
  | .bool _ => true
  | _ => false

/-- `_string_tuple` -/
def stringTuple (printable : Printable) (values : Value) : Attempt (List Str) := do
  let items ← orRaise .valueError values.array?
  require (items.all isTextOrInt)
  items.mapM (Value.str printable)

/-- `_required_bool` -/
def requiredBool (members : Members) (key : String) : Attempt Bool := do
  orRaise .valueError (← item members key).bool?

/-- The entries of `labels` that are objects. -/
def ruleEntries (entries : Members) : List (Str × Members) :=
  entries.filterMap fun entry => entry.2.object?.map fun rule => (entry.1, rule)

/-- One entry of `labels` -/
def labelRule (entry : Str × Members) : Attempt (Str × AiModerationLabelRule) := do
  let riskThreshold ← (← item entry.2 "risk_threshold").toFloat
  let minAction ← enumValue AiModerationAction (← item entry.2 "min_action")
  let maxAction ← enumValue AiModerationAction (← item entry.2 "max_action")
  let made ← constructed (Validated.make AiModerationLabelRuleFields.postInit
    ⟨riskThreshold, minAction, maxAction⟩)
  return (entry.1, made)

/-- The labels of a policy. -/
def labelRules (payload : Value) : Attempt (Dict Str AiModerationLabelRule) := do
  let entries ← orRaise .valueError payload.object?
  let rules ← (ruleEntries entries).mapM labelRule
  let labels := Dict.ofList rules
  require (labels.length = entries.length)
  return labels

/-- The body of `_parse_discord_ai_moderation_policy` for the payload and its policy. -/
def aiModerationPolicyState (printable : Printable) (payload policy : Members) :
    Attempt PlatformAiModerationPolicyState := do
  let labels ← labelRules (← item policy "labels")
  let blacklistWords ← stringTuple printable (← item policy "blacklist_words")
  let allowedDomains ← stringTuple printable (← item policy "allowed_domains")
  let blacklistAction ← enumValue AiModerationAction (← item policy "blacklist_action")
  let unapprovedDomainAction ←
    enumValue AiModerationAction (← item policy "unapproved_domain_action")
  let contextWindowDays ← (← item policy "context_window_days").toInt
  let repeatOffenderThreshold ← (← item policy "repeat_offender_threshold").toInt
  let repeatOffenderAction ← enumValue AiModerationAction (← item policy "repeat_offender_action")
  let escalationEnabled ← requiredBool policy "escalation_enabled"
  let escalationScoreThreshold ← (← item policy "escalation_score_threshold").toFloat
  let escalationHalfLifeDays ← (← item policy "escalation_half_life_days").toFloat
  let excludedUserIds ← stringTuple printable (← item policy "excluded_user_ids")
  let excludedRoleIds ← stringTuple printable (← item policy "excluded_role_ids")
  let excludedChannelIds ← stringTuple printable (← item policy "excluded_channel_ids")
  let excludeBots ← requiredBool policy "exclude_bots"
  let ocrEnabled ← requiredBool policy "ocr_enabled"
  let ocrFailureMode ← (← item policy "ocr_failure_mode").str printable
  let ocrMaxGifFrames ← (← item policy "ocr_max_gif_frames").toInt
  let ocrProcessEmptyResult ← requiredBool policy "ocr_process_empty_result"
  let testMode ← requiredBool policy "test_mode"
  let enforcementMode ← enumValue AiModerationEnforcementMode (← item policy "enforcement_mode")
  let limitedMinConfidence ← (← item policy "limited_min_confidence").toFloat
  let limitedHardRuleLabels ← stringTuple printable (← item policy "limited_hard_rule_labels")
  let betaEnforcementAcknowledged ← requiredBool policy "beta_enforcement_acknowledged"
  let allowAutomatedTimeout ← requiredBool policy "allow_automated_timeout"
  let allowAutomatedKick ← requiredBool policy "allow_automated_kick"
  let allowAutomatedBan ← requiredBool policy "allow_automated_ban"
  let made ← constructed (Validated.make PlatformAiModerationPolicyFields.postInit
    { platform := .discord
      blacklistWords := blacklistWords
      allowedDomains := allowedDomains
      labels := labels
      blacklistAction := blacklistAction
      unapprovedDomainAction := unapprovedDomainAction
      contextWindowDays := contextWindowDays
      repeatOffenderThreshold := repeatOffenderThreshold
      repeatOffenderAction := repeatOffenderAction
      escalationEnabled := escalationEnabled
      escalationScoreThreshold := escalationScoreThreshold
      escalationHalfLifeDays := escalationHalfLifeDays
      excludedUserIds := excludedUserIds
      excludedRoleIds := excludedRoleIds
      excludedChannelIds := excludedChannelIds
      excludeBots := excludeBots
      ocrEnabled := ocrEnabled
      ocrFailureMode := ocrFailureMode
      ocrMaxGifFrames := ocrMaxGifFrames
      ocrProcessEmptyResult := ocrProcessEmptyResult
      testMode := testMode
      enforcementMode := enforcementMode
      limitedMinConfidence := limitedMinConfidence
      limitedHardRuleLabels := limitedHardRuleLabels
      betaEnforcementAcknowledged := betaEnforcementAcknowledged
      allowAutomatedTimeout := allowAutomatedTimeout
      allowAutomatedKick := allowAutomatedKick
      allowAutomatedBan := allowAutomatedBan })
  let isDefaultPolicy ← requiredBool payload "is_default_policy"
  return ⟨made, isDefaultPolicy⟩

/-- The payload and its policy, if both are objects. -/
def policyShape? (payload : Value) : Option (Members × Members) :=
  payload.object?.bind fun members =>
    (memberOrNull members "policy").object?.map fun policy => (members, policy)

/-- `_parse_discord_ai_moderation_policy` -/
def parseDiscordAiModerationPolicy (printable : Printable) (payload : Value) :
    Except ControlException PlatformAiModerationPolicyState :=
  parser (policyShape? payload) "Discord Control API returned an invalid AI moderation policy."
    "Discord Control API returned invalid AI moderation policy values."
    fun shape => aiModerationPolicyState printable shape.1 shape.2

end MuxivoConsole.Control
