/-
The portable AI moderation policy and the checks of its constructor.
-/
import MuxivoConsole.Domain.Connections
import MuxivoConsole.Floats.Binary64
import MuxivoConsole.Mapping.Dict
import MuxivoConsole.Text.Unicode

namespace MuxivoConsole.Control

open Mapping Text

/-- `Enum(text)` for any text, with `none` for the `ValueError` -/
def StrEnum.parseCodes? {α : Type} [StrEnum α] (codes : Str) : Option α :=
  StrEnum.members.find? fun member => codesOf (StrEnum.value member) == codes

theorem StrEnum.parseCodes?_eq_some {α : Type} [StrEnum α] {codes : Str} {member : α} :
    StrEnum.parseCodes? codes = some member ↔ codesOf (StrEnum.value member) = codes := by
  constructor
  · intro hparse
    simpa using List.find?_some hparse
  · rintro rfl
    have hsome : (StrEnum.parseCodes? (codesOf (StrEnum.value member)) : Option α).isSome := by
      rw [StrEnum.parseCodes?, List.find?_isSome]
      exact ⟨member, StrEnum.complete member, by simp⟩
    obtain ⟨found, hfound⟩ := Option.isSome_iff_exists.mp hsome
    have hvalue : codesOf (StrEnum.value found) = codesOf (StrEnum.value member) := by
      simpa using List.find?_some hfound
    rw [hfound, StrEnum.value_injective (codesOf_injective hvalue)]

inductive AiModerationAction where
  | ignore
  | log
  | review
  | warn
  | delete
  | deleteWarn
  | timeout
  | kick
  | ban
  deriving DecidableEq

instance : StrEnum AiModerationAction where
  members := [.ignore, .log, .review, .warn, .delete, .deleteWarn, .timeout, .kick, .ban]
  value
    | .ignore => "IGNORE"
    | .log => "LOG"
    | .review => "REVIEW"
    | .warn => "WARN"
    | .delete => "DELETE"
    | .deleteWarn => "DELETE_WARN"
    | .timeout => "TIMEOUT"
    | .kick => "KICK"
    | .ban => "BAN"
  complete := by rintro ⟨⟩ <;> decide
  distinct := by decide

inductive AiModerationEnforcementMode where
  | shadow
  | limited
  | elevated
  deriving DecidableEq

instance : StrEnum AiModerationEnforcementMode where
  members := [.shadow, .limited, .elevated]
  value
    | .shadow => "SHADOW"
    | .limited => "LIMITED"
    | .elevated => "ELEVATED"
  complete := by rintro ⟨⟩ <;> decide
  distinct := by decide

/-- `_ACTION_RANK` -/
def actionRank (action : AiModerationAction) : Nat :=
  (StrEnum.members : List AiModerationAction).idxOf action

structure AiModerationLabelRuleFields where
  riskThreshold : Binary64
  minAction : AiModerationAction
  maxAction : AiModerationAction
  deriving DecidableEq

def AiModerationLabelRuleFields.postInit (rule : AiModerationLabelRuleFields) : Option String :=
  if !rule.riskThreshold.between 0 100 then
    some "AI moderation label risk threshold must be between 0 and 100."
  else if actionRank rule.minAction > actionRank rule.maxAction then
    some "AI moderation label minimum action cannot exceed maximum action."
  else none

abbrev AiModerationLabelRule := Validated AiModerationLabelRuleFields.postInit

/-- The double of the literal `0.1` -/
def tenth : Binary64 := .ofRat (1 / 10)

structure PlatformAiModerationPolicyFields where
  platform : Platform
  blacklistWords : List Str := []
  allowedDomains : List Str := []
  labels : Dict Str AiModerationLabelRule := ⟨[], List.nodup_nil⟩
  blacklistAction : AiModerationAction := .deleteWarn
  unapprovedDomainAction : AiModerationAction := .review
  contextWindowDays : ℤ := 30
  repeatOffenderThreshold : ℤ := 3
  repeatOffenderAction : AiModerationAction := .timeout
  escalationEnabled : Bool := true
  escalationScoreThreshold : Binary64 := .finite 3
  escalationHalfLifeDays : Binary64 := .finite 30
  excludedUserIds : List Str := []
  excludedRoleIds : List Str := []
  excludedChannelIds : List Str := []
  excludeBots : Bool := true
  ocrEnabled : Bool := false
  ocrFailureMode : Str := codesOf "SKIP"
  ocrMaxGifFrames : ℤ := 6
  ocrProcessEmptyResult : Bool := false
  testMode : Bool := false
  enforcementMode : AiModerationEnforcementMode := .shadow
  limitedMinConfidence : Binary64 := .ofRat (95 / 100)
  limitedHardRuleLabels : List Str := [codesOf "INVITE", codesOf "SCAM"]
  betaEnforcementAcknowledged : Bool := false
  allowAutomatedTimeout : Bool := false
  allowAutomatedKick : Bool := false
  allowAutomatedBan : Bool := false
  deriving DecidableEq

def PlatformAiModerationPolicyFields.postInit (policy : PlatformAiModerationPolicyFields) :
    Option String :=
  if policy.platform ≠ .discord then
    some "AI moderation policy is not supported by this platform."
  else if ¬ (1 ≤ policy.contextWindowDays ∧ policy.contextWindowDays ≤ 3650) then
    some "AI moderation context window must be between 1 and 3650 days."
  else if ¬ (1 ≤ policy.repeatOffenderThreshold ∧ policy.repeatOffenderThreshold ≤ 1000) then
    some "AI moderation repeat-offender threshold must be between 1 and 1000."
  else if !(tenth.le policy.escalationScoreThreshold &&
      policy.escalationScoreThreshold.le (.finite 1000)) then
    some "AI moderation escalation score threshold is invalid."
  else if !policy.escalationHalfLifeDays.between 1 3650 then
    some "AI moderation escalation half-life is invalid."
  else if !policy.limitedMinConfidence.between 0 1 then
    some "AI moderation limited confidence must be between 0 and 1."
  else if policy.ocrFailureMode ∉ [codesOf "SKIP", codesOf "REVIEW"] then
    some "AI moderation OCR failure mode is invalid."
  else if ¬ (1 ≤ policy.ocrMaxGifFrames ∧ policy.ocrMaxGifFrames ≤ 24) then
    some "AI moderation OCR GIF frame limit must be between 1 and 24."
  else if policy.limitedHardRuleLabels = [] then
    some "AI moderation limited hard-rule labels are required."
  else if policy.enforcementMode = .elevated ∧
      (policy.allowAutomatedTimeout || policy.allowAutomatedKick || policy.allowAutomatedBan) ∧
      policy.betaEnforcementAcknowledged = false then
    some "Elevated automated actions require acknowledgement."
  else none

abbrev PlatformAiModerationPolicy := Validated PlatformAiModerationPolicyFields.postInit

structure PlatformAiModerationPolicyState where
  policy : PlatformAiModerationPolicy
  isDefaultPolicy : Bool
  deriving DecidableEq

section Constructors

variable {rule : AiModerationLabelRuleFields} {policy : PlatformAiModerationPolicyFields}

/-- What the constructor of a label rule accepts. -/
theorem AiModerationLabelRuleFields.postInit_eq_none : rule.postInit = none ↔
    rule.riskThreshold.between 0 100 = true ∧
      actionRank rule.minAction ≤ actionRank rule.maxAction := by
  unfold AiModerationLabelRuleFields.postInit
  split_ifs with hrisk hrank
  · simp only [Bool.not_eq_true'] at hrisk
    simp [hrisk]
  · simp only [false_iff]
    omega
  · simp only [Bool.not_eq_true', Bool.not_eq_false] at hrisk
    simp only [hrisk, true_and, true_iff]
    omega

/-- What the constructor of a policy accepts. -/
structure PlatformAiModerationPolicyFields.Valid (policy : PlatformAiModerationPolicyFields) :
    Prop where
  platform : policy.platform = .discord
  contextWindowDays : 1 ≤ policy.contextWindowDays ∧ policy.contextWindowDays ≤ 3650
  repeatOffenderThreshold :
    1 ≤ policy.repeatOffenderThreshold ∧ policy.repeatOffenderThreshold ≤ 1000
  escalationScoreThreshold : (tenth.le policy.escalationScoreThreshold &&
    policy.escalationScoreThreshold.le (.finite 1000)) = true
  escalationHalfLifeDays : policy.escalationHalfLifeDays.between 1 3650 = true
  limitedMinConfidence : policy.limitedMinConfidence.between 0 1 = true
  ocrFailureMode : policy.ocrFailureMode ∈ [codesOf "SKIP", codesOf "REVIEW"]
  ocrMaxGifFrames : 1 ≤ policy.ocrMaxGifFrames ∧ policy.ocrMaxGifFrames ≤ 24
  limitedHardRuleLabels : policy.limitedHardRuleLabels ≠ []
  acknowledged : ¬ (policy.enforcementMode = .elevated ∧
    (policy.allowAutomatedTimeout || policy.allowAutomatedKick || policy.allowAutomatedBan) ∧
    policy.betaEnforcementAcknowledged = false)

theorem PlatformAiModerationPolicyFields.postInit_eq_none :
    policy.postInit = none ↔ policy.Valid := by
  constructor
  · intro haccepted
    unfold PlatformAiModerationPolicyFields.postInit at haccepted
    split_ifs at haccepted with hplatform hwindow hthreshold hscore hlife hconfidence hocr hframes
      hlabels hacknowledged
    exact ⟨not_not.mp hplatform, hwindow, hthreshold, by simpa using hscore,
      by simpa using hlife, by simpa using hconfidence, hocr, hframes,
      hlabels, hacknowledged⟩
  · intro hvalid
    unfold PlatformAiModerationPolicyFields.postInit
    rw [if_neg (not_not.mpr hvalid.platform), if_neg (not_not.mpr hvalid.contextWindowDays),
      if_neg (not_not.mpr hvalid.repeatOffenderThreshold),
      if_neg (by simpa using hvalid.escalationScoreThreshold),
      if_neg (by simp [hvalid.escalationHalfLifeDays]),
      if_neg (by simp [hvalid.limitedMinConfidence]), if_neg (not_not.mpr hvalid.ocrFailureMode),
      if_neg (not_not.mpr hvalid.ocrMaxGifFrames), if_neg hvalid.limitedHardRuleLabels,
      if_neg hvalid.acknowledged]

end Constructors

end MuxivoConsole.Control
