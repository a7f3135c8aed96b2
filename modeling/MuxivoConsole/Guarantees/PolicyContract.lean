/-
The browser contract and the domain accept different moderation policies: where both accept one,
the conversions are inverse to each other, and the rules that only one side has are exactly what
keeps them from it.
-/
import MuxivoConsole.Contracts.ModerationPolicies

namespace MuxivoConsole.Control

open Mapping Text

theorem enumOf_eq_ok {α : Type} [StrEnum α] {text : Str} {member : α} :
    enumOf text = .ok member ↔ codesOf (StrEnum.value member) = text := by
  rw [← StrEnum.parseCodes?_eq_some, enumOf]
  cases (StrEnum.parseCodes? text : Option α) with
  | none => simp
  | some found => simp

section Actions

variable {text : Str} {action : AiModerationAction}

/-- The contract names the actions of the domain, in their order. -/
theorem codesOf_value_mem_aiActions (action : AiModerationAction) :
    codesOf (StrEnum.value action) ∈ aiActions := by
  cases action <;> decide

theorem idxOf_aiActions (action : AiModerationAction) :
    aiActions.idxOf (codesOf (StrEnum.value action)) = actionRank action := by
  cases action <;> decide

theorem exists_action (htext : text ∈ aiActions) :
    ∃ action : AiModerationAction, codesOf (StrEnum.value action) = text := by
  have hall : ∀ text ∈ aiActions, ∃ action ∈ (StrEnum.members : List AiModerationAction),
      codesOf (StrEnum.value action) = text := by decide
  obtain ⟨action, _, haction⟩ := hall text htext
  exact ⟨action, haction⟩

theorem codesOf_value_mem_enforcementModes (mode : AiModerationEnforcementMode) :
    codesOf (StrEnum.value mode) ∈ enforcementModes := by
  cases mode <;> decide

theorem exists_enforcementMode (htext : text ∈ enforcementModes) :
    ∃ mode : AiModerationEnforcementMode, codesOf (StrEnum.value mode) = text := by
  have hall : ∀ text ∈ enforcementModes,
      ∃ mode ∈ (StrEnum.members : List AiModerationEnforcementMode),
        codesOf (StrEnum.value mode) = text := by decide
  obtain ⟨mode, _, hmode⟩ := hall text htext
  exact ⟨mode, hmode⟩

theorem codesOf_value_eq_elevated {mode : AiModerationEnforcementMode} :
    codesOf (StrEnum.value mode) = codesOf "ELEVATED" ↔ mode = .elevated := by
  cases mode <;> decide

end Actions

section Bounds

variable {bounds : FieldBounds} {low high value : Binary64}

theorem FieldBounds.within_of_ne_nan (hvalue : value ≠ .nan) :
    bounds.within low high value = (low.le value && value.le high) := by
  rw [FieldBounds.within, if_neg hvalue]

/-- What the order accepts is no NaN, and the field accepts it. -/
theorem FieldBounds.within_of_le (hvalue : (low.le value && value.le high) = true) :
    value ≠ .nan ∧ bounds.within low high value = true := by
  have hne : value ≠ .nan := by
    rintro rfl
    rw [Binary64.le_nan] at hvalue
    cases hvalue
  exact ⟨hne, by rw [FieldBounds.within_of_ne_nan hne, hvalue]⟩

end Bounds

section Conversions

variable {bounds : FieldBounds}

/-- A label rule is converted exactly if it comes from a rule of the domain. -/
theorem AiModerationLabelRuleRequest.toDomainRule_eq_ok (rule : AiModerationLabelRuleRequest)
    (domainRule : AiModerationLabelRule) :
    rule.toDomainRule = .ok domainRule ↔
      AiModerationLabelRuleRequest.ofDomainRule domainRule = rule := by
  constructor
  · intro hrule
    unfold AiModerationLabelRuleRequest.toDomainRule at hrule
    cases hmin : (enumOf rule.minAction : Except String AiModerationAction) with
    | error message =>
        rw [hmin] at hrule
        cases hrule
    | ok minAction =>
        cases hmax : (enumOf rule.maxAction : Except String AiModerationAction) with
        | error message =>
            rw [hmin, hmax] at hrule
            cases hrule
        | ok maxAction =>
            rw [hmin, hmax] at hrule
            have hfields : domainRule.fields = ⟨rule.riskThreshold, minAction, maxAction⟩ :=
              Validated.make_eq_ok.mp hrule
            rw [AiModerationLabelRuleRequest.ofDomainRule, hfields, enumOf_eq_ok.mp hmin,
              enumOf_eq_ok.mp hmax]
  · rintro rfl
    have hmin : enumOf (AiModerationLabelRuleRequest.ofDomainRule domainRule).minAction =
        .ok domainRule.fields.minAction := enumOf_eq_ok.mpr rfl
    have hmax : enumOf (AiModerationLabelRuleRequest.ofDomainRule domainRule).maxAction =
        .ok domainRule.fields.maxAction := enumOf_eq_ok.mpr rfl
    unfold AiModerationLabelRuleRequest.toDomainRule
    rw [hmin, hmax]
    exact Validated.make_eq_ok.mpr rfl

/-- A request is converted exactly if it comes from a policy of the domain. -/
theorem AiModerationPolicyUpdateFields.toDomainPolicy_eq_ok
    (request : AiModerationPolicyUpdateFields) (policy : PlatformAiModerationPolicy) :
    request.toDomainPolicy = .ok policy ↔
      AiModerationPolicyUpdateFields.ofDomainPolicy policy.fields = request := by
  constructor
  · intro hpolicy
    unfold AiModerationPolicyUpdateFields.toDomainPolicy at hpolicy
    cases hlabels : request.labels.traverse AiModerationLabelRuleRequest.toDomainRule with
    | error message =>
        rw [hlabels] at hpolicy
        cases hpolicy
    | ok labels =>
      cases hblacklist : (enumOf request.blacklistAction : Except String AiModerationAction) with
      | error message =>
          rw [hlabels, hblacklist] at hpolicy
          cases hpolicy
      | ok blacklistAction =>
        cases hdomain :
            (enumOf request.unapprovedDomainAction : Except String AiModerationAction) with
        | error message =>
            rw [hlabels, hblacklist, hdomain] at hpolicy
            cases hpolicy
        | ok unapprovedDomainAction =>
          cases hrepeat :
              (enumOf request.repeatOffenderAction : Except String AiModerationAction) with
          | error message =>
              rw [hlabels, hblacklist, hdomain, hrepeat] at hpolicy
              cases hpolicy
          | ok repeatOffenderAction =>
            cases hmode :
                (enumOf request.enforcementMode : Except String AiModerationEnforcementMode) with
            | error message =>
                rw [hlabels, hblacklist, hdomain, hrepeat, hmode] at hpolicy
                cases hpolicy
            | ok mode =>
                rw [hlabels, hblacklist, hdomain, hrepeat, hmode] at hpolicy
                have hfields := Validated.make_eq_ok.mp hpolicy
                rw [hfields, AiModerationPolicyUpdateFields.ofDomainPolicy]
                simp only [enumOf_eq_ok.mp hblacklist, enumOf_eq_ok.mp hdomain,
                  enumOf_eq_ok.mp hrepeat, enumOf_eq_ok.mp hmode,
                  (Dict.traverse_eq_ok
                    AiModerationLabelRuleRequest.toDomainRule_eq_ok).mp hlabels]
  · rintro rfl
    have hplatform := (PlatformAiModerationPolicyFields.postInit_eq_none.mp
      policy.accepted).platform
    have hlabels : (AiModerationPolicyUpdateFields.ofDomainPolicy policy.fields).labels.traverse
        AiModerationLabelRuleRequest.toDomainRule = .ok policy.fields.labels :=
      (Dict.traverse_eq_ok AiModerationLabelRuleRequest.toDomainRule_eq_ok).mpr rfl
    have hblacklist :
        enumOf (AiModerationPolicyUpdateFields.ofDomainPolicy policy.fields).blacklistAction =
          .ok policy.fields.blacklistAction := enumOf_eq_ok.mpr rfl
    have hdomain :
        enumOf
          (AiModerationPolicyUpdateFields.ofDomainPolicy policy.fields).unapprovedDomainAction =
            .ok policy.fields.unapprovedDomainAction := enumOf_eq_ok.mpr rfl
    have hrepeat :
        enumOf
          (AiModerationPolicyUpdateFields.ofDomainPolicy policy.fields).repeatOffenderAction =
            .ok policy.fields.repeatOffenderAction := enumOf_eq_ok.mpr rfl
    have hmode :
        enumOf (AiModerationPolicyUpdateFields.ofDomainPolicy policy.fields).enforcementMode =
          .ok policy.fields.enforcementMode := enumOf_eq_ok.mpr rfl
    unfold AiModerationPolicyUpdateFields.toDomainPolicy
    rw [hlabels, hblacklist, hdomain, hrepeat, hmode]
    refine Validated.make_eq_ok.mpr ?_
    rw [← hplatform]
    rfl

end Conversions

/-- What the domain asks of a request beyond the contract: its label rules run from a lower action
to a higher one, the hard-rule labels are not empty, and no number is NaN. -/
structure AiModerationPolicyUpdateFields.Convertible (request : AiModerationPolicyUpdateFields) :
    Prop where
  ranks : ∀ entry ∈ request.labels.items,
    aiActions.idxOf entry.2.minAction ≤ aiActions.idxOf entry.2.maxAction
  thresholds : ∀ entry ∈ request.labels.items, entry.2.riskThreshold ≠ .nan
  numbers : request.escalationScoreThreshold ≠ .nan ∧ request.escalationHalfLifeDays ≠ .nan ∧
    request.limitedMinConfidence ≠ .nan
  hardRules : request.limitedHardRuleLabels ≠ []

/-- What the contract asks of a policy beyond the domain: its lists are not too long. -/
structure PlatformAiModerationPolicyFields.Representable
    (policy : PlatformAiModerationPolicyFields) : Prop where
  blacklistWords : policy.blacklistWords.length ≤ 200
  allowedDomains : policy.allowedDomains.length ≤ 200
  labels : policy.labels.length ≤ 32
  excludedUserIds : policy.excludedUserIds.length ≤ 500
  excludedRoleIds : policy.excludedRoleIds.length ≤ 500
  excludedChannelIds : policy.excludedChannelIds.length ≤ 500

section Agreement

variable {bounds : FieldBounds}

/-- A rule of the domain passes the contract, and its request keeps the rules of the domain. -/
theorem AiModerationLabelRuleRequest.ofDomainRule_spec (rule : AiModerationLabelRule) :
    (ofDomainRule rule).accepts bounds = true ∧
      aiActions.idxOf (ofDomainRule rule).minAction ≤
        aiActions.idxOf (ofDomainRule rule).maxAction ∧
      (ofDomainRule rule).riskThreshold ≠ .nan := by
  obtain ⟨hrisk, hranks⟩ := AiModerationLabelRuleFields.postInit_eq_none.mp rule.accepted
  obtain ⟨hne, hwithin⟩ := @FieldBounds.within_of_le bounds _ _ _ hrisk
  refine ⟨?_, ?_, hne⟩
  · simp only [accepts, ofDomainRule, hwithin, codesOf_value_mem_aiActions, decide_true,
      Bool.and_true]
  · rw [ofDomainRule, idxOf_aiActions, idxOf_aiActions]
    exact hranks

/-- A request for a label rule that keeps the rules of the domain comes from one of its rules. -/
theorem AiModerationLabelRuleRequest.exists_ofDomainRule {rule : AiModerationLabelRuleRequest}
    (haccepts : rule.accepts bounds = true)
    (hranks : aiActions.idxOf rule.minAction ≤ aiActions.idxOf rule.maxAction)
    (hrisk : rule.riskThreshold ≠ .nan) :
    ∃ domainRule, ofDomainRule domainRule = rule := by
  simp only [accepts, Bool.and_eq_true, decide_eq_true_eq] at haccepts
  obtain ⟨⟨hwithin, hmin⟩, hmax⟩ := haccepts
  obtain ⟨minAction, hmin⟩ := exists_action hmin
  obtain ⟨maxAction, hmax⟩ := exists_action hmax
  rw [FieldBounds.within_of_ne_nan hrisk] at hwithin
  rw [← hmin, ← hmax, idxOf_aiActions, idxOf_aiActions] at hranks
  have haccepted : (⟨rule.riskThreshold, minAction, maxAction⟩ :
      AiModerationLabelRuleFields).postInit = none :=
    AiModerationLabelRuleFields.postInit_eq_none.mpr ⟨hwithin, hranks⟩
  refine ⟨⟨_, haccepted⟩, ?_⟩
  rw [ofDomainRule, hmin, hmax]

/-- An accepted request comes from a policy of the domain exactly if it keeps the rules that the
contract does not check. -/
theorem AiModerationPolicyUpdateRequest.exists_ofDomainPolicy_iff
    (request : AiModerationPolicyUpdateRequest bounds) :
    (∃ policy : PlatformAiModerationPolicy,
        AiModerationPolicyUpdateFields.ofDomainPolicy policy.fields = request.fields) ↔
      request.fields.Convertible := by
  constructor
  · rintro ⟨policy, hpolicy⟩
    have hvalid := PlatformAiModerationPolicyFields.postInit_eq_none.mp policy.accepted
    rw [← hpolicy]
    have hrules : ∀ entry ∈
        (AiModerationPolicyUpdateFields.ofDomainPolicy policy.fields).labels.items,
        ∃ rule, AiModerationLabelRuleRequest.ofDomainRule rule = entry.2 := by
      intro entry hentry
      obtain ⟨original, _, rfl⟩ := List.mem_map.mp hentry
      exact ⟨original.2, rfl⟩
    refine ⟨fun entry hentry => ?_, fun entry hentry => ?_, ⟨?_, ?_, ?_⟩,
      hvalid.limitedHardRuleLabels⟩
    · obtain ⟨rule, hrule⟩ := hrules entry hentry
      rw [← hrule]
      exact (@AiModerationLabelRuleRequest.ofDomainRule_spec bounds rule).2.1
    · obtain ⟨rule, hrule⟩ := hrules entry hentry
      rw [← hrule]
      exact (@AiModerationLabelRuleRequest.ofDomainRule_spec bounds rule).2.2
    · exact (@FieldBounds.within_of_le bounds _ _ _ hvalid.escalationScoreThreshold).1
    · exact (@FieldBounds.within_of_le bounds _ _ _ hvalid.escalationHalfLifeDays).1
    · exact (@FieldBounds.within_of_le bounds _ _ _ hvalid.limitedMinConfidence).1
  · rintro ⟨hranks, hthresholds, ⟨hscore, hlife, hconfidence⟩, hhard⟩
    have haccepts := request.accepted
    obtain ⟨labels, hlabels⟩ := Dict.exists_mapValues fun entry hentry =>
      AiModerationLabelRuleRequest.exists_ofDomainRule (haccepts.labels entry hentry)
        (hranks entry hentry) (hthresholds entry hentry)
    obtain ⟨blacklistAction, hblacklist⟩ := exists_action haccepts.blacklistAction
    obtain ⟨unapprovedDomainAction, hdomain⟩ := exists_action haccepts.unapprovedDomainAction
    obtain ⟨repeatOffenderAction, hrepeat⟩ := exists_action haccepts.repeatOffenderAction
    obtain ⟨mode, hmode⟩ := exists_enforcementMode haccepts.enforcementMode
    let policy : PlatformAiModerationPolicyFields :=
      { platform := .discord
        blacklistWords := request.fields.blacklistWords
        allowedDomains := request.fields.allowedDomains
        labels := labels
        blacklistAction := blacklistAction
        unapprovedDomainAction := unapprovedDomainAction
        contextWindowDays := request.fields.contextWindowDays
        repeatOffenderThreshold := request.fields.repeatOffenderThreshold
        repeatOffenderAction := repeatOffenderAction
        escalationEnabled := request.fields.escalationEnabled
        escalationScoreThreshold := request.fields.escalationScoreThreshold
        escalationHalfLifeDays := request.fields.escalationHalfLifeDays
        excludedUserIds := request.fields.excludedUserIds
        excludedRoleIds := request.fields.excludedRoleIds
        excludedChannelIds := request.fields.excludedChannelIds
        excludeBots := request.fields.excludeBots
        ocrEnabled := request.fields.ocrEnabled
        ocrFailureMode := request.fields.ocrFailureMode
        ocrMaxGifFrames := request.fields.ocrMaxGifFrames
        ocrProcessEmptyResult := request.fields.ocrProcessEmptyResult
        testMode := request.fields.testMode
        enforcementMode := mode
        limitedMinConfidence := request.fields.limitedMinConfidence
        limitedHardRuleLabels := request.fields.limitedHardRuleLabels
        betaEnforcementAcknowledged := request.fields.betaEnforcementAcknowledged
        allowAutomatedTimeout := request.fields.allowAutomatedTimeout
        allowAutomatedKick := request.fields.allowAutomatedKick
        allowAutomatedBan := request.fields.allowAutomatedBan }
    have hwithinScore := haccepts.escalationScoreThreshold
    have hwithinLife := haccepts.escalationHalfLifeDays
    have hwithinConfidence := haccepts.limitedMinConfidence
    rw [FieldBounds.within_of_ne_nan hscore] at hwithinScore
    rw [FieldBounds.within_of_ne_nan hlife] at hwithinLife
    rw [FieldBounds.within_of_ne_nan hconfidence] at hwithinConfidence
    have hacknowledged := haccepts.acknowledged
    rw [← hmode, codesOf_value_eq_elevated] at hacknowledged
    have haccepted : policy.postInit = none :=
      PlatformAiModerationPolicyFields.postInit_eq_none.mpr
        ⟨rfl, haccepts.contextWindowDays, haccepts.repeatOffenderThreshold, hwithinScore,
          hwithinLife, hwithinConfidence, haccepts.ocrFailureMode, haccepts.ocrMaxGifFrames,
          hhard, hacknowledged⟩
    refine ⟨⟨policy, haccepted⟩, ?_⟩
    simp only [policy, AiModerationPolicyUpdateFields.ofDomainPolicy, hlabels, hblacklist, hdomain,
      hrepeat, hmode]

/-- The contract accepts a policy of the domain exactly if its lists are not too long. -/
theorem PlatformAiModerationPolicy.accepts_iff (policy : PlatformAiModerationPolicy) :
    (AiModerationPolicyUpdateFields.ofDomainPolicy policy.fields).Accepts bounds ↔
      policy.fields.Representable := by
  constructor
  · intro haccepts
    have hlabels := haccepts.labelCount
    rw [AiModerationPolicyUpdateFields.ofDomainPolicy] at hlabels
    exact ⟨haccepts.blacklistWords, haccepts.allowedDomains, by simpa using hlabels,
      haccepts.excludedUserIds, haccepts.excludedRoleIds, haccepts.excludedChannelIds⟩
  · intro hfits
    have hvalid := PlatformAiModerationPolicyFields.postInit_eq_none.mp policy.accepted
    have hlabels : (AiModerationPolicyUpdateFields.ofDomainPolicy policy.fields).labels.length ≤ 32
        := by
      rw [AiModerationPolicyUpdateFields.ofDomainPolicy]
      simpa using hfits.labels
    refine ⟨hfits.blacklistWords, hfits.allowedDomains, hlabels, fun entry hentry => ?_,
      codesOf_value_mem_aiActions _, codesOf_value_mem_aiActions _, hvalid.contextWindowDays,
      hvalid.repeatOffenderThreshold, codesOf_value_mem_aiActions _,
      (FieldBounds.within_of_le hvalid.escalationScoreThreshold).2,
      (FieldBounds.within_of_le hvalid.escalationHalfLifeDays).2, hfits.excludedUserIds,
      hfits.excludedRoleIds, hfits.excludedChannelIds, hvalid.ocrFailureMode,
      hvalid.ocrMaxGifFrames, codesOf_value_mem_enforcementModes _,
      (FieldBounds.within_of_le hvalid.limitedMinConfidence).2, ?_⟩
    · obtain ⟨original, _, rfl⟩ := List.mem_map.mp hentry
      exact (AiModerationLabelRuleRequest.ofDomainRule_spec original.2).1
    · have hacknowledged := hvalid.acknowledged
      rwa [← codesOf_value_eq_elevated] at hacknowledged

theorem AiModerationPolicyUpdateRequest.fromDomainPolicy_eq_some
    {policy : PlatformAiModerationPolicy} {request : AiModerationPolicyUpdateRequest bounds} :
    fromDomainPolicy bounds policy = some request ↔
      AiModerationPolicyUpdateFields.ofDomainPolicy policy.fields = request.fields := by
  obtain ⟨fields, haccepted⟩ := request
  unfold fromDomainPolicy
  split_ifs with haccepts
  · simp
  · simp only [false_iff]
    rintro rfl
    exact haccepts haccepted

end Agreement

/-- A request that the contract accepts is converted and given back exactly if its label rules run
from a lower action to a higher one, its hard-rule labels are not empty and no number is NaN; and a
policy of the domain is represented and given back exactly if its lists are not too long. -/
theorem contract_and_domain_agree_iff (bounds : FieldBounds) :
    (∀ request : AiModerationPolicyUpdateRequest bounds,
      (∃ policy, request.toDomainPolicy = .ok policy ∧
          AiModerationPolicyUpdateRequest.fromDomainPolicy bounds policy = some request) ↔
        request.fields.Convertible) ∧
    ∀ policy : PlatformAiModerationPolicy,
      (∃ request, AiModerationPolicyUpdateRequest.fromDomainPolicy bounds policy = some request ∧
          request.toDomainPolicy = .ok policy) ↔
        policy.fields.Representable := by
  constructor
  · intro request
    rw [← request.exists_ofDomainPolicy_iff]
    constructor
    · rintro ⟨policy, hpolicy, _⟩
      exact ⟨policy, (request.fields.toDomainPolicy_eq_ok policy).mp hpolicy⟩
    · rintro ⟨policy, hpolicy⟩
      exact ⟨policy, (request.fields.toDomainPolicy_eq_ok policy).mpr hpolicy,
        AiModerationPolicyUpdateRequest.fromDomainPolicy_eq_some.mpr hpolicy⟩
  · intro policy
    rw [← @PlatformAiModerationPolicy.accepts_iff bounds policy]
    constructor
    · rintro ⟨request, hrequest, _⟩
      rw [AiModerationPolicyUpdateRequest.fromDomainPolicy_eq_some.mp hrequest]
      exact request.accepted
    · intro haccepts
      refine ⟨⟨_, haccepts⟩, ?_, ?_⟩
      · exact AiModerationPolicyUpdateRequest.fromDomainPolicy_eq_some.mpr rfl
      · exact (AiModerationPolicyUpdateFields.toDomainPolicy_eq_ok _ policy).mpr rfl

namespace PolicyContractExample

/-- A request in which a label rule runs from `BAN` to `IGNORE`. -/
def reversed : AiModerationPolicyUpdateFields where
  labels := ⟨[(codesOf "SPAM", ⟨.finite 50, codesOf "BAN", codesOf "IGNORE"⟩)], by decide⟩

/-- A policy of the domain with 201 words. -/
def wordy : PlatformAiModerationPolicyFields where
  platform := .discord
  blacklistWords := List.replicate 201 (codesOf "spam")

end PolicyContractExample

open PolicyContractExample in
/-- The contract accepts a request whose label rule the domain refuses, and the domain a policy
with more words than the contract takes. -/
theorem contract_accepts_reversed_rule :
    (∃ request : AiModerationPolicyUpdateRequest ⟨false⟩,
      request.fields = reversed ∧ ∃ message, request.toDomainPolicy = .error message) ∧
    ∃ policy : PlatformAiModerationPolicy, policy.fields = wordy ∧
      AiModerationPolicyUpdateRequest.fromDomainPolicy ⟨false⟩ policy = none := by
  have hreversed : reversed.Accepts ⟨false⟩ := by decide +kernel
  have hwordy : wordy.postInit = none := by decide +kernel
  refine ⟨⟨⟨reversed, hreversed⟩, rfl, ?_⟩, ⟨wordy, hwordy⟩, rfl, ?_⟩
  · refine ⟨"AI moderation label minimum action cannot exceed maximum action.", ?_⟩
    change reversed.toDomainPolicy = _
    decide +kernel
  · unfold AiModerationPolicyUpdateRequest.fromDomainPolicy
    rw [dif_neg]
    intro haccepts
    have hwords : wordy.blacklistWords.length ≤ 200 := haccepts.blacklistWords
    rw [show wordy.blacklistWords.length = 201 from List.length_replicate] at hwords
    omega

end MuxivoConsole.Control
