/-
The wire format of the moderation policy: what is sent is read back field by field, and an excluded
identifier comes back as the decimal form of its number.
-/
import MuxivoConsole.Infrastructure.DiscordPolicies

namespace MuxivoConsole.Control

open Json Mapping Text

/-- ASCII digits without a leading zero, as `str` writes a number. -/
def isCanonicalId (id : Str) : Bool :=
  id.all Binary64.isDigitCode && (id.length = 1 || id.head? ≠ some 48)

/-- An identifier after its way through an integer. -/
def renumbered (id : Str) : Str :=
  showInt ((parseInt? id).getD 0)

section Identifiers

variable {id : Str} {ids : List Str}

/-- Decimal digits of any script are read as their values. -/
theorem parseInt?_of_decimals (hne : id ≠ []) (hlength : id.length ≤ 20)
    (hdecimal : id.all isDecimalCode = true) :
    parseInt? id = some ((Nat.ofDigits 10 (id.map fun code =>
      (decimalValue? code).getD 0).reverse : Nat) : ℤ) := by
  rw [List.all_eq_true] at hdecimal
  have hvalue : ∀ code ∈ id, ∃ value, decimalValue? code = some value := fun code hcode =>
    Option.isSome_iff_exists.mp (hdecimal code hcode)
  have hdigit : ∀ code ∈ id, asciiNumeral code = 48 + (decimalValue? code).getD 0 ∧
      (decimalValue? code).getD 0 < 10 := by
    intro code hcode
    obtain ⟨value, hvalue⟩ := hvalue code hcode
    obtain ⟨_, _, hsmall, _⟩ := exists_of_decimalValue? hvalue
    rw [hvalue, asciiNumeral_of_decimal hvalue]
    exact ⟨rfl, hsmall⟩
  have hascii : id.map asciiNumeral = id.map fun code => 48 + (decimalValue? code).getD 0 :=
    List.map_congr_left fun code hcode => (hdigit code hcode).1
  have hrange : ∀ code ∈ id.map asciiNumeral, 48 ≤ code ∧ code ≤ 57 := by
    intro code hcode
    obtain ⟨original, horiginal, rfl⟩ := List.mem_map.mp hcode
    obtain ⟨hequal, hsmall⟩ := hdigit original horiginal
    omega
  have hsolid : ∀ code ∈ id.map asciiNumeral, isBlankCode code = false := by
    intro code hcode
    have := hrange code hcode
    simp only [isBlankCode, Bool.or_eq_false_iff, Bool.and_eq_false_iff, decide_eq_false_iff_not,
      beq_eq_false_iff_ne, ne_eq]
    omega
  have hdigits := digits?_of_digits (by simpa using hne) hrange
  have hnatural : natural? (id.map asciiNumeral) = some (Nat.ofDigits 10 (id.map fun code =>
      (decimalValue? code).getD 0).reverse) := by
    have hbound : ((id.map asciiNumeral).map (· - 48)).length ≤ maxDigits := by
      rw [List.length_map, List.length_map]
      exact hlength.trans (by decide)
    have hback : (id.map asciiNumeral).map (· - 48) = id.map fun code =>
        (decimalValue? code).getD 0 := by
      rw [hascii, List.map_map]
      exact List.map_congr_left fun code _ => by simp
    rw [natural?, hdigits, Option.bind_eq_bind, Option.bind_some, if_pos hbound, hback]
  rw [parseInt?, int?, trim_eq_self hsolid]
  cases hcodes : id.map asciiNumeral with
  | nil => simp [hne] at hcodes
  | cons head tail =>
      have hhead := hrange head (by simp [hcodes])
      rw [hcodes] at hnatural
      split
      · rename_i heq
        simp only [List.cons.injEq] at heq
        omega
      · rename_i heq
        simp only [List.cons.injEq] at heq
        omega
      · rw [hnatural]
        rfl

/-- What `str` writes for a number is canonical. -/
theorem isCanonicalId_showNat (number : Nat) : isCanonicalId (showNat number) = true := by
  have hdigits : (showNat number).all Binary64.isDigitCode = true := by
    rw [List.all_eq_true]
    intro code hcode
    have := digit_of_mem_showNat hcode
    simp only [Binary64.isDigitCode, Bool.and_eq_true, decide_eq_true_eq]
    omega
  rw [isCanonicalId, hdigits, Bool.true_and]
  by_cases hzero : number = 0
  · rw [hzero]
    rfl
  · rw [showNat_eq_digits hzero]
    have hlast := Nat.getLast_digit_ne_zero 10 hzero
    have hne : Nat.digits 10 number ≠ [] := Nat.digits_ne_nil_iff_ne_zero.mpr hzero
    have hhead : ((Nat.digits 10 number).reverse.map (48 + ·)).head? =
        some (48 + (Nat.digits 10 number).getLast hne) := by
      rw [List.head?_map, List.head?_reverse, List.getLast?_eq_some_getLast hne]
      rfl
    rw [hhead]
    simp [hlast]

/-- Canonical digits are written again for their number. -/
theorem showNat_of_canonical (hne : id ≠ []) (hcanonical : isCanonicalId id = true) :
    showNat (Nat.ofDigits 10 (id.map fun code => (decimalValue? code).getD 0).reverse) = id := by
  simp only [isCanonicalId, Bool.and_eq_true, List.all_eq_true, Binary64.isDigitCode,
    decide_eq_true_eq] at hcanonical
  obtain ⟨hdigits, hhead⟩ := hcanonical
  have hvalues : (id.map fun code => (decimalValue? code).getD 0) = id.map (· - 48) :=
    List.map_congr_left fun code hcode => by rw [decimalValue?_ascii (hdigits code hcode)]; rfl
  have hback : (id.map (· - 48)).map (48 + ·) = id := by
    rw [List.map_map]
    conv_rhs => rw [← List.map_id id]
    exact List.map_congr_left fun code hcode => by
      have := hdigits code hcode
      simp only [Function.comp_apply, id_eq]
      omega
  rw [hvalues]
  by_cases hsingle : id = [48]
  · rw [hsingle]
    decide
  · have hsmall : ∀ digit ∈ (id.map (· - 48)).reverse, digit < 10 := by
      intro digit hdigit
      obtain ⟨code, hcode, rfl⟩ := List.mem_map.mp (List.mem_reverse.mp hdigit)
      have := hdigits code hcode
      omega
    obtain ⟨first, others, rfl⟩ := List.exists_cons_of_ne_nil hne
    have hfirst : first ≠ 48 := by
      rintro rfl
      simp only [List.length_cons, List.head?_cons, Bool.or_eq_true, decide_eq_true_eq,
        ne_eq, not_true_eq_false, or_false] at hhead
      have hothers : others = [] := List.length_eq_zero_iff.mp (by omega)
      exact hsingle (by rw [hothers])
    have hlast : ∀ h : ((first :: others).map (· - 48)).reverse ≠ [],
        ((first :: others).map (· - 48)).reverse.getLast h ≠ 0 := by
      intro h
      have := hdigits first List.mem_cons_self
      rw [List.getLast_reverse]
      simp only [List.map_cons, List.head_cons]
      omega
    have hreverse := Nat.digits_ofDigits 10 (by decide) _ hsmall hlast
    have hnumber : Nat.ofDigits 10 ((first :: others).map (· - 48)).reverse ≠ 0 := by
      intro hzero
      rw [hzero, Nat.digits_zero] at hreverse
      simp at hreverse
    rw [showNat_eq_digits hnumber, hreverse, List.reverse_reverse, hback]

/-- An identifier that is sent comes back as it is exactly if it is canonical. -/
theorem renumbered_eq_self_iff (hne : id ≠ []) (hlength : id.length ≤ 20)
    (hdecimal : id.all isDecimalCode = true) :
    renumbered id = id ↔ isCanonicalId id = true := by
  have hparse := parseInt?_of_decimals hne hlength hdecimal
  have hshow : renumbered id = showNat (Nat.ofDigits 10 (id.map fun code =>
      (decimalValue? code).getD 0).reverse) := by
    rw [renumbered, hparse, Option.getD_some, showInt, if_neg (by omega)]
    rfl
  rw [hshow]
  constructor
  · intro hequal
    rw [← hequal]
    exact isCanonicalId_showNat _
  · exact showNat_of_canonical hne

theorem discordSnowflake_eq_ok {value : Value} (hsent : discordSnowflake id = .ok value) :
    id ≠ [] ∧ id.length ≤ 20 ∧ id.all isDecimalCode = true ∧
      ∃ number : Nat, parseInt? id = some (number : ℤ) ∧ value = .int number := by
  unfold discordSnowflake require at hsent
  split_ifs at hsent with hcheck
  · simp only [ne_eq, decide_not, Bool.and_eq_true, Bool.not_eq_true', decide_eq_false_iff_not,
      decide_eq_true_eq] at hcheck
    obtain ⟨⟨⟨hne, hdecimal⟩, _⟩, hlength⟩ := hcheck
    have hparse := parseInt?_of_decimals hne hlength hdecimal
    rw [hparse] at hsent
    cases hsent
    exact ⟨hne, hlength, hdecimal, _, hparse, rfl⟩
  · cases hsent

/-- The number of an identifier that is sent is written without an exception. -/
theorem reprInt_of_discordSnowflake {value : Value} (printable : Printable)
    (hsent : discordSnowflake id = .ok value) :
    isTextOrInt value = true ∧ value.str printable = .ok (renumbered id) := by
  obtain ⟨hne, hlength, hdecimal, number, hparse, rfl⟩ := discordSnowflake_eq_ok hsent
  have hvalue := parseInt?_of_decimals hne hlength hdecimal
  rw [hparse, Option.some.injEq, Nat.cast_inj] at hvalue
  have hbound : number < 10 ^ maxDigits := by
    have hdigits : ∀ digit ∈ (id.map fun code => (decimalValue? code).getD 0).reverse,
        digit < 10 := by
      intro digit hdigit
      obtain ⟨code, hcode, rfl⟩ := List.mem_map.mp (List.mem_reverse.mp hdigit)
      obtain ⟨value, hvalue⟩ := Option.isSome_iff_exists.mp (List.all_eq_true.mp hdecimal code hcode)
      obtain ⟨_, _, hsmall, _⟩ := exists_of_decimalValue? hvalue
      rw [hvalue]
      exact hsmall
    have hless := Nat.ofDigits_lt_base_pow_length (by decide : 1 < 10) hdigits
    rw [← hvalue, List.length_reverse, List.length_map] at hless
    exact hless.trans_le (Nat.pow_le_pow_right (by decide) (hlength.trans (by decide)))
  refine ⟨rfl, ?_⟩
  have hshown : reprInt (number : ℤ) = .ok (showInt number) := by
    rw [reprInt, Int.natAbs_natCast, if_pos (length_showNat_le hbound)]
  rw [renumbered, hparse]
  simp only [Value.str, Value.repr, hshown, Option.getD_some]

theorem mapM_discordSnowflake {values : List Value} (printable : Printable)
    (hsent : ids.mapM discordSnowflake = .ok values) :
    values.all isTextOrInt = true ∧
      values.mapM (Value.str printable) = .ok (ids.map renumbered) := by
  induction ids generalizing values with
  | nil =>
      cases hsent
      exact ⟨rfl, rfl⟩
  | cons head tail ih =>
      rw [List.mapM_cons] at hsent
      cases hhead : discordSnowflake head with
      | error error =>
          rw [hhead] at hsent
          cases hsent
      | ok value =>
          cases htail : tail.mapM discordSnowflake with
          | error error =>
              rw [hhead, htail] at hsent
              cases hsent
          | ok rest =>
              rw [hhead, htail] at hsent
              cases hsent
              obtain ⟨hkind, hstr⟩ := reprInt_of_discordSnowflake printable hhead
              obtain ⟨hkinds, hstrs⟩ := ih htail
              refine ⟨by rw [List.all_cons, hkind, hkinds]; rfl, ?_⟩
              rw [List.mapM_cons, hstr, hstrs]
              rfl

/-- A list of identifiers comes back with every identifier renumbered. -/
theorem stringTuple_discordSnowflakes {value : Value} (printable : Printable)
    (hsent : discordSnowflakes ids = .ok value) :
    stringTuple printable value = .ok (ids.map renumbered) := by
  unfold discordSnowflakes at hsent
  cases hvalues : ids.mapM discordSnowflake with
  | error error =>
      rw [hvalues] at hsent
      cases hsent
  | ok values =>
      rw [hvalues] at hsent
      cases hsent
      obtain ⟨hkinds, hstrs⟩ := mapM_discordSnowflake printable hvalues
      have hrequired : require (values.all isTextOrInt) = .ok () := by rw [hkinds]; rfl
      change (require (values.all isTextOrInt) >>= fun _ => values.mapM (Value.str printable)) = _
      rw [hrequired, ok_bind, hstrs]

/-- Identifiers that are sent come back as they are exactly if all are canonical. -/
theorem map_renumbered_eq_self_iff {value : Value} (hsent : discordSnowflakes ids = .ok value) :
    ids.map renumbered = ids ↔ ∀ id ∈ ids, isCanonicalId id = true := by
  have hall : ∀ id ∈ ids, ∃ value, discordSnowflake id = .ok value := by
    unfold discordSnowflakes at hsent
    cases hvalues : ids.mapM discordSnowflake with
    | error error =>
        rw [hvalues] at hsent
        cases hsent
    | ok values => exact exists_of_mapM_eq_ok hvalues
  have hiff : ∀ id ∈ ids, renumbered id = id ↔ isCanonicalId id = true := by
    intro id hid
    obtain ⟨value, hvalue⟩ := hall id hid
    obtain ⟨hne, hlength, hdecimal, _⟩ := discordSnowflake_eq_ok hvalue
    exact renumbered_eq_self_iff hne hlength hdecimal
  have hself : ids.map renumbered = ids ↔ ∀ id ∈ ids, renumbered id = id := by
    conv_lhs => rhs; rw [← List.map_id' ids]
    exact List.map_inj_left
  rw [hself]
  exact forall₂_congr hiff

end Identifiers

section Fields

variable {printable : Printable}

/-- The lookup in an object that is written out. -/
theorem item_cons (name key : String) (value : Value) (members : Members) :
    item ((codesOf name, value) :: members) key =
      if name = key then .ok value else item members key := by
  by_cases hkey : name = key
  · simp [item, member?, orRaise, hkey]
  · have hcodes : ¬ codesOf name = codesOf key := fun hcodes => hkey (codesOf_injective hcodes)
    simp [item, member?, hkey, hcodes]

theorem requiredBool_cons (name key : String) (value : Value) (members : Members) :
    requiredBool ((codesOf name, value) :: members) key =
      if name = key then orRaise .valueError value.bool? else requiredBool members key := by
  rw [requiredBool, item_cons]
  split_ifs <;> rfl

theorem enumValue_textValue {α : Type} [StrEnum α] (member : α) :
    enumValue α (textValue (StrEnum.value member)) = .ok member := by
  rw [textValue, enumValue, StrEnum.parseCodes?_eq_some.mpr rfl]
  rfl

theorem stringTuple_stringList (words : List Str) :
    stringTuple printable (stringList words) = .ok words := by
  have hkinds : (words.map Value.string).all isTextOrInt = true := by
    rw [List.all_eq_true]
    intro value hvalue
    obtain ⟨word, _, rfl⟩ := List.mem_map.mp hvalue
    rfl
  have hwords : (words.map Value.string).mapM (Value.str printable) = .ok words := by
    clear hkinds
    induction words with
    | nil => rfl
    | cons head tail ih =>
        rw [List.map_cons, List.mapM_cons, ih]
        rfl
  change (require ((words.map Value.string).all isTextOrInt) >>= fun _ =>
    (words.map Value.string).mapM (Value.str printable)) = _
  rw [hkinds, hwords]
  rfl

theorem constructed_fields {α : Type} {postInit : α → Option String} (value : Validated postInit) :
    constructed (Validated.make postInit value.fields) = .ok value := by
  rw [Validated.make_eq_ok.mpr rfl]
  rfl

theorem labelRule_labelRulePayload (label : Str) (rule : AiModerationLabelRule) :
    labelRule (label, labelRuleMembers rule) = .ok (label, rule) := by
  simp only [labelRule, labelRuleMembers, item_cons, String.reduceEq, if_true, if_false, ok_bind,
    Value.toFloat, enumValue_textValue]
  exact congrArg (· >>= fun made => pure (label, made)) (constructed_fields rule)

theorem labelRules_payload (labels : Dict Str AiModerationLabelRule) :
    labelRules (.object (labels.mapValues labelRulePayload).items) = .ok labels := by
  have hentries : ruleEntries (labels.mapValues labelRulePayload).items =
      labels.items.map fun entry => (entry.1, labelRuleMembers entry.2) := by
    rw [ruleEntries, Dict.items_mapValues, List.filterMap_map, ← List.filterMap_eq_map]
    rfl
  have hrules : (labels.items.map fun entry => (entry.1, labelRuleMembers entry.2)).mapM labelRule =
      .ok labels.items := by
    induction labels.items with
    | nil => rfl
    | cons head tail ih =>
        rw [List.map_cons, List.mapM_cons, ih, labelRule_labelRulePayload]
        rfl
  have hlength : require (labels.length = (labels.mapValues labelRulePayload).items.length) =
      .ok () := by
    rw [Dict.items_mapValues, List.length_map]
    simp [require, Dict.length]
  simp only [labelRules, Value.object?, orRaise, ok_bind, hentries, hrules, Dict.ofList_items,
    hlength]
  rfl

/-- The policy that comes back: the identifiers are renumbered. -/
def renumberedPolicy (policy : PlatformAiModerationPolicyFields) :
    PlatformAiModerationPolicyFields :=
  { policy with
    excludedUserIds := policy.excludedUserIds.map renumbered
    excludedRoleIds := policy.excludedRoleIds.map renumbered
    excludedChannelIds := policy.excludedChannelIds.map renumbered }

/-- The identifiers play no part in the validity of a policy. -/
theorem postInit_renumberedPolicy (policy : PlatformAiModerationPolicyFields) :
    (renumberedPolicy policy).postInit = policy.postInit := rfl

def PlatformAiModerationPolicy.renumbered (policy : PlatformAiModerationPolicy) :
    PlatformAiModerationPolicy where
  fields := renumberedPolicy policy.fields
  accepted := by rw [postInit_renumberedPolicy, policy.accepted]

/-- Every field of the payload is read back, the identifiers renumbered. -/
theorem aiModerationPolicyState_policyPayload {policy : PlatformAiModerationPolicy}
    {payload : Members} {userIds roleIds channelIds : Value} {isDefault : Bool}
    (huser : discordSnowflakes policy.fields.excludedUserIds = .ok userIds)
    (hrole : discordSnowflakes policy.fields.excludedRoleIds = .ok roleIds)
    (hchannel : discordSnowflakes policy.fields.excludedChannelIds = .ok channelIds)
    (hdefault : requiredBool payload "is_default_policy" = .ok isDefault) :
    aiModerationPolicyState printable payload
        (policyPayload policy.fields userIds roleIds channelIds) =
      .ok ⟨policy.renumbered, isDefault⟩ := by
  have hplatform := (PlatformAiModerationPolicyFields.postInit_eq_none.mp policy.accepted).platform
  have hmade : ∀ fields, fields = policy.renumbered.fields →
      constructed (Validated.make PlatformAiModerationPolicyFields.postInit fields) =
        .ok policy.renumbered := by
    rintro _ rfl
    exact constructed_fields policy.renumbered
  simp only [aiModerationPolicyState, policyPayload, requiredBool_cons, item_cons,
    String.reduceEq, if_true, if_false, ok_bind, labelRules_payload, stringTuple_stringList,
    enumValue_textValue, Value.toInt, Value.toFloat, Value.str, Value.bool?, orRaise,
    stringTuple_discordSnowflakes printable huser, stringTuple_discordSnowflakes printable hrole,
    stringTuple_discordSnowflakes printable hchannel]
  rw [hmade _ (by simp only [PlatformAiModerationPolicy.renumbered, renumberedPolicy, hplatform]), hdefault]
  rfl

end Fields

/-- The answer that holds a payload. -/
def policyAnswer (body : Members) (isDefault : Bool) : Value :=
  .object [(codesOf "policy", .object body), (codesOf "is_default_policy", .bool isDefault)]

/-- The answer that holds the payload of a policy is read as the policy with its identifiers
renumbered. -/
theorem parseDiscordAiModerationPolicy_policyAnswer (printable : Printable)
    {policy : PlatformAiModerationPolicy} {userIds roleIds channelIds : Value} {isDefault : Bool}
    (huser : discordSnowflakes policy.fields.excludedUserIds = .ok userIds)
    (hrole : discordSnowflakes policy.fields.excludedRoleIds = .ok roleIds)
    (hchannel : discordSnowflakes policy.fields.excludedChannelIds = .ok channelIds) :
    parseDiscordAiModerationPolicy printable
        (policyAnswer (policyPayload policy.fields userIds roleIds channelIds) isDefault) =
      .ok ⟨policy.renumbered, isDefault⟩ := by
  have hdefault : requiredBool
      [(codesOf "policy", .object (policyPayload policy.fields userIds roleIds channelIds)),
        (codesOf "is_default_policy", .bool isDefault)] "is_default_policy" = .ok isDefault := by
    simp only [requiredBool_cons, String.reduceEq, if_true, if_false]
    rfl
  have hstate := @aiModerationPolicyState_policyPayload printable policy _ _ _ _ _ huser hrole
    hchannel hdefault
  simp only [parseDiscordAiModerationPolicy, policyShape?, policyAnswer, Value.object?,
    memberOrNull, member?, List.find?_cons, beq_self_eq_true, Option.map_some, Option.getD_some,
    Option.bind_some, parser, handled, hstate]

/-- A policy whose payload is accepted is read back as it was sent exactly if all its excluded
identifiers are canonical. -/
theorem policy_wire_round_trip_iff (printable : Printable) (policy : PlatformAiModerationPolicy)
    (isDefault : Bool) (body : Members)
    (hsent : discordAiModerationPolicyPayload policy = .ok body) :
    parseDiscordAiModerationPolicy printable (policyAnswer body isDefault) =
        .ok ⟨policy, isDefault⟩ ↔
      ∀ id ∈ policy.fields.excludedUserIds ++ policy.fields.excludedRoleIds ++
        policy.fields.excludedChannelIds, isCanonicalId id = true := by
  simp only [discordAiModerationPolicyPayload, bind_eq_ok] at hsent
  obtain ⟨_, _, userIds, huser, roleIds, hrole, channelIds, hchannel, hbody⟩ := hsent
  cases hbody
  have hfields : policy.renumbered = policy ↔
      policy.fields.excludedUserIds.map renumbered = policy.fields.excludedUserIds ∧
        policy.fields.excludedRoleIds.map renumbered = policy.fields.excludedRoleIds ∧
        policy.fields.excludedChannelIds.map renumbered = policy.fields.excludedChannelIds := by
    rw [← Validated.fields_inj]
    constructor
    · intro hequal
      exact ⟨congrArg PlatformAiModerationPolicyFields.excludedUserIds hequal,
        congrArg PlatformAiModerationPolicyFields.excludedRoleIds hequal,
        congrArg PlatformAiModerationPolicyFields.excludedChannelIds hequal⟩
    · rintro ⟨huserIds, hroleIds, hchannelIds⟩
      simp only [PlatformAiModerationPolicy.renumbered, renumberedPolicy, huserIds, hroleIds,
        hchannelIds]
  rw [parseDiscordAiModerationPolicy_policyAnswer printable huser hrole hchannel, Except.ok.injEq,
    PlatformAiModerationPolicyState.mk.injEq, hfields,
    map_renumbered_eq_self_iff huser, map_renumbered_eq_self_iff hrole,
    map_renumbered_eq_self_iff hchannel]
  simp only [List.mem_append, or_imp, forall_and, and_true, and_assoc]

namespace PolicyWireExample

/-- The default policy with excluded users. -/
def excluding (ids : List Str) : PlatformAiModerationPolicyFields where
  platform := .discord
  excludedUserIds := ids

def canonical : PlatformAiModerationPolicy where
  fields := excluding [codesOf "123"]
  accepted := by decide +kernel

/-- A policy that excludes an identifier with leading zeros. -/
def padded : PlatformAiModerationPolicy where
  fields := excluding [codesOf "007"]
  accepted := by decide +kernel

theorem canonical_sent : discordAiModerationPolicyPayload canonical =
    .ok (policyPayload canonical.fields (.array [.int 123]) (.array []) (.array [])) := by
  have hsnowflake : discordSnowflake (codesOf "123") = .ok (.int 123) := by rfl
  simp only [discordAiModerationPolicyPayload, canonical, excluding, discordSnowflakes,
    List.mapM_cons, List.mapM_nil, hsnowflake, require, decide_true, if_true, ok_bind]
  rfl

theorem padded_sent : discordAiModerationPolicyPayload padded =
    .ok (policyPayload padded.fields (.array [.int 7]) (.array []) (.array [])) := by
  have hsnowflake : discordSnowflake (codesOf "007") = .ok (.int 7) := by rfl
  simp only [discordAiModerationPolicyPayload, padded, excluding, discordSnowflakes,
    List.mapM_cons, List.mapM_nil, hsnowflake, require, decide_true, if_true, ok_bind]
  rfl

end PolicyWireExample

open PolicyWireExample in
theorem policy_wire_round_trip_canonical :
    parseDiscordAiModerationPolicy (fun _ => true)
        (policyAnswer
          (policyPayload canonical.fields (.array [.int 123]) (.array []) (.array [])) true) =
      .ok ⟨canonical, true⟩ :=
  (policy_wire_round_trip_iff _ canonical true _ canonical_sent).mpr (by decide)

open PolicyWireExample in
/-- An identifier with leading zeros is accepted, and comes back without them. -/
theorem policy_wire_drops_zeros :
    discordAiModerationPolicyPayload padded =
        .ok (policyPayload padded.fields (.array [.int 7]) (.array []) (.array [])) ∧
      parseDiscordAiModerationPolicy (fun _ => true)
          (policyAnswer
            (policyPayload padded.fields (.array [.int 7]) (.array []) (.array [])) true) ≠
        .ok ⟨padded, true⟩ := by
  refine ⟨padded_sent, fun hparsed => ?_⟩
  have huser : discordSnowflakes padded.fields.excludedUserIds = .ok (.array [.int 7]) := by rfl
  have hnone : discordSnowflakes [] = .ok (.array []) := rfl
  rw [parseDiscordAiModerationPolicy_policyAnswer _ huser hnone hnone] at hparsed
  rw [Except.ok.injEq, PlatformAiModerationPolicyState.mk.injEq] at hparsed
  have hids := congrArg (fun policy => policy.fields.excludedUserIds) hparsed.1
  revert hids
  decide

end MuxivoConsole.Control
