/-
The browser contract of the moderation policy: the declared constraints of its fields, and the
conversions to and from the domain's policy.
-/
import MuxivoConsole.Domain.ModerationPolicies

namespace MuxivoConsole.Control

open Mapping Text

/-- `AiAction` -/
def aiActions : List Str :=
  ["IGNORE", "LOG", "REVIEW", "WARN", "DELETE", "DELETE_WARN", "TIMEOUT", "KICK", "BAN"].map codesOf

/-- `EnforcementMode` -/
def enforcementModes : List Str :=
  ["SHADOW", "LIMITED", "ELEVATED"].map codesOf

/-- What the validator decides about `Field(ge=…, le=…)`: numbers by their order, and NaN, which
compares with nothing, one way or the other. -/
structure FieldBounds where
  allowsNan : Bool

/-- `Field(ge=low, le=high)` -/
def FieldBounds.within (bounds : FieldBounds) (low high value : Binary64) : Bool :=
  if value = .nan then bounds.allowsNan else low.le value && value.le high

structure AiModerationLabelRuleRequest where
  riskThreshold : Binary64
  minAction : Str
  maxAction : Str
  deriving DecidableEq

def AiModerationLabelRuleRequest.accepts (bounds : FieldBounds)
    (rule : AiModerationLabelRuleRequest) : Bool :=
  bounds.within (.finite 0) (.finite 100) rule.riskThreshold && rule.minAction ∈ aiActions &&
    rule.maxAction ∈ aiActions

structure AiModerationPolicyUpdateFields where
  blacklistWords : List Str := []
  allowedDomains : List Str := []
  labels : Dict Str AiModerationLabelRuleRequest := ⟨[], List.nodup_nil⟩
  blacklistAction : Str := codesOf "DELETE_WARN"
  unapprovedDomainAction : Str := codesOf "REVIEW"
  contextWindowDays : ℤ := 30
  repeatOffenderThreshold : ℤ := 3
  repeatOffenderAction : Str := codesOf "TIMEOUT"
  escalationEnabled : Bool := true
  escalationScoreThreshold : Binary64 := .finite 3
  escalationHalfLifeDays : Binary64 := .finite 30
  excludedUserIds : List Str := []
  excludedRoleIds : List Str := []
  excludedChannelIds : List Str := []
  excludeBots : Bool := true
  ocrEnabled : Bool := false
  ocrFailureMode : Str := codesOf "SKIP"
  ocrMaxGifFrames : ℤ := 6
  ocrProcessEmptyResult : Bool := false
  testMode : Bool := false
  enforcementMode : Str := codesOf "SHADOW"
  limitedMinConfidence : Binary64 := .ofRat (95 / 100)
  limitedHardRuleLabels : List Str := [codesOf "INVITE", codesOf "SCAM"]
  betaEnforcementAcknowledged : Bool := false
  allowAutomatedTimeout : Bool := false
  allowAutomatedKick : Bool := false
  allowAutomatedBan : Bool := false
  deriving DecidableEq

/-- The declared constraints, and `require_explicit_elevated_acknowledgement`. -/
structure AiModerationPolicyUpdateFields.Accepts (bounds : FieldBounds)
    (request : AiModerationPolicyUpdateFields) : Prop where
  blacklistWords : request.blacklistWords.length ≤ 200
  allowedDomains : request.allowedDomains.length ≤ 200
  labelCount : request.labels.length ≤ 32
  labels : ∀ entry ∈ request.labels.items, entry.2.accepts bounds = true
  blacklistAction : request.blacklistAction ∈ aiActions
  unapprovedDomainAction : request.unapprovedDomainAction ∈ aiActions
  contextWindowDays : 1 ≤ request.contextWindowDays ∧ request.contextWindowDays ≤ 3650
  repeatOffenderThreshold :
    1 ≤ request.repeatOffenderThreshold ∧ request.repeatOffenderThreshold ≤ 1000
  repeatOffenderAction : request.repeatOffenderAction ∈ aiActions
  escalationScoreThreshold :
    bounds.within tenth (.finite 1000) request.escalationScoreThreshold = true
  escalationHalfLifeDays :
    bounds.within (.finite 1) (.finite 3650) request.escalationHalfLifeDays = true
  excludedUserIds : request.excludedUserIds.length ≤ 500
  excludedRoleIds : request.excludedRoleIds.length ≤ 500
  excludedChannelIds : request.excludedChannelIds.length ≤ 500
  ocrFailureMode : request.ocrFailureMode ∈ [codesOf "SKIP", codesOf "REVIEW"]
  ocrMaxGifFrames : 1 ≤ request.ocrMaxGifFrames ∧ request.ocrMaxGifFrames ≤ 24
  enforcementMode : request.enforcementMode ∈ enforcementModes
  limitedMinConfidence : bounds.within (.finite 0) (.finite 1) request.limitedMinConfidence = true
  acknowledged : ¬ (request.enforcementMode = codesOf "ELEVATED" ∧
    (request.allowAutomatedTimeout || request.allowAutomatedKick || request.allowAutomatedBan) ∧
    request.betaEnforcementAcknowledged = false)

instance (bounds : FieldBounds) (request : AiModerationPolicyUpdateFields) :
    Decidable (request.Accepts bounds) :=
  decidable_of_iff
    (request.blacklistWords.length ≤ 200 ∧ request.allowedDomains.length ≤ 200 ∧
      request.labels.length ≤ 32 ∧
      (∀ entry ∈ request.labels.items, entry.2.accepts bounds = true) ∧
      request.blacklistAction ∈ aiActions ∧ request.unapprovedDomainAction ∈ aiActions ∧
      (1 ≤ request.contextWindowDays ∧ request.contextWindowDays ≤ 3650) ∧
      (1 ≤ request.repeatOffenderThreshold ∧ request.repeatOffenderThreshold ≤ 1000) ∧
      request.repeatOffenderAction ∈ aiActions ∧
      bounds.within tenth (.finite 1000) request.escalationScoreThreshold = true ∧
      bounds.within (.finite 1) (.finite 3650) request.escalationHalfLifeDays = true ∧
      request.excludedUserIds.length ≤ 500 ∧ request.excludedRoleIds.length ≤ 500 ∧
      request.excludedChannelIds.length ≤ 500 ∧
      request.ocrFailureMode ∈ [codesOf "SKIP", codesOf "REVIEW"] ∧
      (1 ≤ request.ocrMaxGifFrames ∧ request.ocrMaxGifFrames ≤ 24) ∧
      request.enforcementMode ∈ enforcementModes ∧
      bounds.within (.finite 0) (.finite 1) request.limitedMinConfidence = true ∧
      ¬ (request.enforcementMode = codesOf "ELEVATED" ∧
        (request.allowAutomatedTimeout || request.allowAutomatedKick ||
          request.allowAutomatedBan) ∧
        request.betaEnforcementAcknowledged = false))
    ⟨fun ⟨h1, h2, h3, h4, h5, h6, h7, h8, h9, h10, h11, h12, h13, h14, h15, h16, h17, h18, h19⟩ =>
      ⟨h1, h2, h3, h4, h5, h6, h7, h8, h9, h10, h11, h12, h13, h14, h15, h16, h17, h18, h19⟩,
    fun ⟨h1, h2, h3, h4, h5, h6, h7, h8, h9, h10, h11, h12, h13, h14, h15, h16, h17, h18, h19⟩ =>
      ⟨h1, h2, h3, h4, h5, h6, h7, h8, h9, h10, h11, h12, h13, h14, h15, h16, h17, h18, h19⟩⟩

/-- A model that passed its validation. -/
structure AiModerationPolicyUpdateRequest (bounds : FieldBounds) where
  fields : AiModerationPolicyUpdateFields
  accepted : fields.Accepts bounds

/-- `Enum(text)`, with the text of the `ValueError` -/
def enumOf {α : Type} [StrEnum α] (text : Str) : Except String α :=
  match StrEnum.parseCodes? text with
  | some member => .ok member
  | none => .error "not a valid member"

def AiModerationLabelRuleRequest.toDomainRule (rule : AiModerationLabelRuleRequest) :
    Except String AiModerationLabelRule := do
  let minAction ← enumOf rule.minAction
  let maxAction ← enumOf rule.maxAction
  Validated.make AiModerationLabelRuleFields.postInit ⟨rule.riskThreshold, minAction, maxAction⟩

/-- `to_domain_policy`, with the text of a `ValueError` -/
def AiModerationPolicyUpdateFields.toDomainPolicy (request : AiModerationPolicyUpdateFields) :
    Except String PlatformAiModerationPolicy := do
  let labels ← request.labels.traverse AiModerationLabelRuleRequest.toDomainRule
  let blacklistAction ← enumOf request.blacklistAction
  let unapprovedDomainAction ← enumOf request.unapprovedDomainAction
  let repeatOffenderAction ← enumOf request.repeatOffenderAction
  let enforcementMode ← enumOf request.enforcementMode
  Validated.make PlatformAiModerationPolicyFields.postInit
    { platform := .discord
      blacklistWords := request.blacklistWords
      allowedDomains := request.allowedDomains
      labels := labels
      blacklistAction := blacklistAction
      unapprovedDomainAction := unapprovedDomainAction
      contextWindowDays := request.contextWindowDays
      repeatOffenderThreshold := request.repeatOffenderThreshold
      repeatOffenderAction := repeatOffenderAction
      escalationEnabled := request.escalationEnabled
      escalationScoreThreshold := request.escalationScoreThreshold
      escalationHalfLifeDays := request.escalationHalfLifeDays
      excludedUserIds := request.excludedUserIds
      excludedRoleIds := request.excludedRoleIds
      excludedChannelIds := request.excludedChannelIds
      excludeBots := request.excludeBots
      ocrEnabled := request.ocrEnabled
      ocrFailureMode := request.ocrFailureMode
      ocrMaxGifFrames := request.ocrMaxGifFrames
      ocrProcessEmptyResult := request.ocrProcessEmptyResult
      testMode := request.testMode
      enforcementMode := enforcementMode
      limitedMinConfidence := request.limitedMinConfidence
      limitedHardRuleLabels := request.limitedHardRuleLabels
      betaEnforcementAcknowledged := request.betaEnforcementAcknowledged
      allowAutomatedTimeout := request.allowAutomatedTimeout
      allowAutomatedKick := request.allowAutomatedKick
      allowAutomatedBan := request.allowAutomatedBan }

def AiModerationLabelRuleRequest.ofDomainRule (rule : AiModerationLabelRule) :
    AiModerationLabelRuleRequest where
  riskThreshold := rule.fields.riskThreshold
  minAction := codesOf (StrEnum.value rule.fields.minAction)
  maxAction := codesOf (StrEnum.value rule.fields.maxAction)

/-- The arguments that `from_domain_policy` gives to the model. -/
def AiModerationPolicyUpdateFields.ofDomainPolicy (policy : PlatformAiModerationPolicyFields) :
    AiModerationPolicyUpdateFields where
  blacklistWords := policy.blacklistWords
  allowedDomains := policy.allowedDomains
  labels := policy.labels.mapValues AiModerationLabelRuleRequest.ofDomainRule
  blacklistAction := codesOf (StrEnum.value policy.blacklistAction)
  unapprovedDomainAction := codesOf (StrEnum.value policy.unapprovedDomainAction)
  contextWindowDays := policy.contextWindowDays
  repeatOffenderThreshold := policy.repeatOffenderThreshold
  repeatOffenderAction := codesOf (StrEnum.value policy.repeatOffenderAction)
  escalationEnabled := policy.escalationEnabled
  escalationScoreThreshold := policy.escalationScoreThreshold
  escalationHalfLifeDays := policy.escalationHalfLifeDays
  excludedUserIds := policy.excludedUserIds
  excludedRoleIds := policy.excludedRoleIds
  excludedChannelIds := policy.excludedChannelIds
  excludeBots := policy.excludeBots
  ocrEnabled := policy.ocrEnabled
  ocrFailureMode := policy.ocrFailureMode
  ocrMaxGifFrames := policy.ocrMaxGifFrames
  ocrProcessEmptyResult := policy.ocrProcessEmptyResult
  testMode := policy.testMode
  enforcementMode := codesOf (StrEnum.value policy.enforcementMode)
  limitedMinConfidence := policy.limitedMinConfidence
  limitedHardRuleLabels := policy.limitedHardRuleLabels
  betaEnforcementAcknowledged := policy.betaEnforcementAcknowledged
  allowAutomatedTimeout := policy.allowAutomatedTimeout
  allowAutomatedKick := policy.allowAutomatedKick
  allowAutomatedBan := policy.allowAutomatedBan

namespace AiModerationPolicyUpdateRequest

variable {bounds : FieldBounds}

/-- `to_domain_policy` -/
def toDomainPolicy (request : AiModerationPolicyUpdateRequest bounds) :
    Except String PlatformAiModerationPolicy :=
  request.fields.toDomainPolicy

/-- `from_domain_policy`, with `none` for the `ValidationError` -/
def fromDomainPolicy (bounds : FieldBounds) (policy : PlatformAiModerationPolicy) :
    Option (AiModerationPolicyUpdateRequest bounds) :=
  if accepted : (AiModerationPolicyUpdateFields.ofDomainPolicy policy.fields).Accepts bounds then
    some ⟨_, accepted⟩
  else none

end AiModerationPolicyUpdateRequest

end MuxivoConsole.Control
