/-
Which conversions of the Discord Control API's answers overflow, and what this says about all of
its parsers: an answer leaves them as a value, as `PlatformControlUnavailableError`, or as one of
the exceptions that the unreadable and the overflowing answers raise.
-/
import MuxivoConsole.Guarantees.DiscordAnswers
import MuxivoConsole.Infrastructure.DiscordPolicies

namespace MuxivoConsole.Control

open Json Mapping Text

/-- A body that gives a value. -/
def Reads {α : Type} (body : Attempt α) : Prop :=
  ∃ value, body = .ok value

section Reading

variable {α β : Type} {body : Attempt α} {next : α → Attempt β} {value : Value}

theorem escapes_reads_bind {escapes : Prop} (hnext : ∀ value, Escapes (next value) ↔ escapes) :
    Escapes (body >>= next) ↔ Escapes body ∨ Reads body ∧ escapes := by
  simp only [escapes_bind, hnext, Reads, exists_and_right]

theorem raises_subscript {key : String} : Raises isHandled (value.subscript key) := by
  cases value with
  | object members => exact raises_orRaise rfl
  | _ =>
      intro error herror
      cases herror
      rfl

theorem raises_iterate : Raises isHandled value.iterate := by
  intro error herror
  cases value <;> cases herror <;> rfl

theorem reads_constructed {σ : Type} {postInit : σ → Option String} {fields : σ} :
    Reads (constructed (Validated.make postInit fields)) ↔ postInit fields = none := by
  constructor
  · rintro ⟨made, hmade⟩
    cases hresult : Validated.make postInit fields with
    | error message =>
        rw [hresult] at hmade
        cases hmade
    | ok found => exact Validated.make_eq_ok.mp hresult ▸ found.accepted
  · intro haccepted
    exact ⟨⟨fields, haccepted⟩, by rw [Validated.make_of_accepted haccepted]; rfl⟩

end Reading

/-- A source of posts whose total is infinite, or whose number of active ones is. -/
def SourceOverflows (printable : Printable) (source : Value) : Prop :=
  ∃ platform count, source.subscript "platform" = .ok platform ∧
    Reads (platform.str printable) ∧ source.subscript "count" = .ok count ∧
    (IsInfinite count ∨ Reads count.toInt ∧
      ∃ active, source.subscript "active_count" = .ok active ∧ IsInfinite active)

/-- A source with a platform and two counts that belong together. -/
def ReadableSource (printable : Printable) (source : Value) : Prop :=
  ∃ platform count active text total number, source.subscript "platform" = .ok platform ∧
    platform.str printable = .ok text ∧ source.subscript "count" = .ok count ∧
    count.toInt = .ok total ∧ source.subscript "active_count" = .ok active ∧
    (orZero active).toInt = .ok number ∧
    IntegrationSourceCountFields.postInit ⟨text, total, number⟩ = none

/-- A component of the integrations with a status. -/
def ReadableStatus (printable : Printable) (data : Value) (component : String) : Prop :=
  ∃ entry status, data.subscript component = .ok entry ∧ entry.subscript "status" = .ok status ∧
    Reads (status.str printable)

/-- Integrations in which an overflowing source, or an infinite interval, comes before every other
fault. -/
def IntegrationsEscape (printable : Printable) (payload : Value) : Prop :=
  ∃ data creator sources items, payload.subscript "integrations" = .ok data ∧
    data.subscript "creator_platforms" = .ok creator ∧
    creator.subscript "sources" = .ok sources ∧ sources.iterate = .ok items ∧
    ((∃ before source after, items = before ++ source :: after ∧
        (∀ earlier ∈ before, ReadableSource printable earlier) ∧
        SourceOverflows printable source) ∨
      (∀ source ∈ items, ReadableSource printable source) ∧
        ReadableStatus printable data "discord_bot" ∧
        ReadableStatus printable data "creator_platforms" ∧
        ∃ interval, creator.subscript "poll_interval_seconds" = .ok interval ∧
          IsInfinite interval)

section Integrations

variable {printable : Printable} {source payload : Value}

theorem escapes_integrationSource :
    Escapes (integrationSource printable source) ↔ SourceOverflows printable source := by
  have hlast : ∀ text total number, ¬ Escapes (constructed (Validated.make
      IntegrationSourceCountFields.postInit ⟨text, total, number⟩)) := fun _ _ _ =>
    not_escapes (raises_constructed rfl)
  unfold integrationSource SourceOverflows
  simp only [escapes_bind, not_escapes raises_subscript, not_escapes (raises_str _), false_or,
    escapes_toInt, isInfinite_orZero, hlast, and_false, exists_false, or_false]
  constructor
  · rintro ⟨platform, hplatform, text, htext, count, hcount, hinfinite | ⟨total, htotal, hactive⟩⟩
    · exact ⟨platform, count, hplatform, ⟨text, htext⟩, hcount, Or.inl hinfinite⟩
    · exact ⟨platform, count, hplatform, ⟨text, htext⟩, hcount, Or.inr ⟨⟨total, htotal⟩, hactive⟩⟩
  · rintro ⟨platform, count, hplatform, ⟨text, htext⟩, hcount,
      hinfinite | ⟨⟨total, htotal⟩, hactive⟩⟩
    · exact ⟨platform, hplatform, text, htext, count, hcount, Or.inl hinfinite⟩
    · exact ⟨platform, hplatform, text, htext, count, hcount, Or.inr ⟨total, htotal, hactive⟩⟩

theorem reads_integrationSource :
    Reads (integrationSource printable source) ↔ ReadableSource printable source := by
  unfold integrationSource ReadableSource
  constructor
  · rintro ⟨made, hmade⟩
    simp only [bind_eq_ok] at hmade
    obtain ⟨platform, hplatform, text, htext, count, hcount, total, htotal, active, hactive,
      number, hnumber, hmade⟩ := hmade
    exact ⟨platform, count, active, text, total, number, hplatform, htext, hcount, htotal, hactive,
      hnumber, reads_constructed.mp ⟨made, hmade⟩⟩
  · rintro ⟨platform, count, active, text, total, number, hplatform, htext, hcount, htotal, hactive,
      hnumber, haccepted⟩
    obtain ⟨made, hmade⟩ := reads_constructed.mpr haccepted
    refine ⟨made, ?_⟩
    simp only [bind_eq_ok]
    exact ⟨platform, hplatform, text, htext, count, hcount, total, htotal, active, hactive, number,
      hnumber, hmade⟩

theorem escapes_sources {items : List Value} :
    Escapes (items.mapM (integrationSource printable)) ↔
      ∃ before source after, items = before ++ source :: after ∧
        (∀ earlier ∈ before, ReadableSource printable earlier) ∧
        SourceOverflows printable source := by
  simp only [escapes_mapM, escapes_integrationSource, ← reads_integrationSource, Reads]

theorem reads_sources {items : List Value} :
    Reads (items.mapM (integrationSource printable)) ↔
      ∀ source ∈ items, ReadableSource printable source := by
  simp only [← reads_integrationSource]
  constructor
  · rintro ⟨sources, hsources⟩
    exact exists_of_mapM_eq_ok hsources
  · exact exists_mapM_eq_ok

theorem failsClosed_integrations :
    FailsClosed (parseDiscordIntegrations printable payload) ↔
      ¬ IntegrationsEscape printable payload := by
  have hlast : ∀ fields, ¬ Escapes (constructed
      (Validated.make PlatformIntegrationsFields.postInit fields)) := fun _ =>
    not_escapes (raises_constructed rfl)
  rw [parseDiscordIntegrations, failsClosed_handled, raises_isHandled]
  simp only [escapes_bind, not_escapes raises_subscript, not_escapes raises_iterate,
    not_escapes (raises_str _), false_or, escapes_toInt, hlast, and_false, exists_false, or_false]
  refine not_congr ?_
  constructor
  · rintro ⟨data, hdata, creator, hcreator, sources, hsources, items, hitems, hescapes⟩
    refine ⟨data, creator, sources, items, hdata, hcreator, hsources, hitems, ?_⟩
    rcases hescapes with hescapes | ⟨counts, hcounts, bot, hbot, status, hstatus, text, htext,
      other, hother, written, hwritten, interval, hinterval, hinfinite⟩
    · exact Or.inl (escapes_sources.mp hescapes)
    · exact Or.inr ⟨reads_sources.mp ⟨counts, hcounts⟩, ⟨bot, status, hbot, hstatus, text, htext⟩,
        ⟨creator, other, hcreator, hother, written, hwritten⟩, interval, hinterval, hinfinite⟩
  · rintro ⟨data, creator, sources, items, hdata, hcreator, hsources, hitems, hescapes⟩
    refine ⟨data, hdata, creator, hcreator, sources, hsources, items, hitems, ?_⟩
    rcases hescapes with hescapes | ⟨hcounts, ⟨bot, status, hbot, hstatus, text, htext⟩,
      ⟨entry, other, hentry, hother, written, hwritten⟩, interval, hinterval, hinfinite⟩
    · exact Or.inl (escapes_sources.mpr hescapes)
    · obtain ⟨counts, hcounts⟩ := reads_sources.mpr hcounts
      rw [hcreator] at hentry
      cases hentry
      exact Or.inr ⟨counts, hcounts, bot, hbot, status, hstatus, text, htext, other, hother,
        written, hwritten, interval, hinterval, hinfinite⟩

end Integrations

/-- What a member of an answer is read as. -/
inductive FieldKind where
  | present
  | text
  | count
  | number
  | flag
  | texts
  | action
  | mode

/-- A member that its conversion, or its check, takes. -/
def FieldKind.Takes (printable : Printable) (value : Value) : FieldKind → Prop
  | present => True
  | text => Reads (value.str printable)
  | count => Reads value.toInt
  | number => Reads value.toFloat
  | flag => ∃ flag, value = .bool flag
  | texts => ∃ items, value = .array items ∧
      ∀ item ∈ items, isTextOrInt item = true ∧ Reads (item.str printable)
  | action => ∃ action : AiModerationAction, value = textValue (StrEnum.value action)
  | mode => ∃ mode : AiModerationEnforcementMode, value = textValue (StrEnum.value mode)

/-- A member that its conversion overflows on. -/
def FieldKind.Overflows (value : Value) : FieldKind → Prop
  | count => IsInfinite value
  | number => IsTooLarge value
  | _ => False

/-- A member that overflows comes before every other fault of the members that are read. -/
def FirstOverflow (printable : Printable) (members : Members) (fields : List (String × FieldKind)) :
    Prop :=
  ∃ before key kind after, fields = before ++ (key, kind) :: after ∧
    (∀ earlier ∈ before, ∃ value, member? members earlier.1 = some value ∧
      earlier.2.Takes printable value) ∧
    ∃ value, member? members key = some value ∧ kind.Overflows value

section Fields

variable {α β : Type} {printable : Printable} {members : Members} {key : String}
  {fields rest : List (String × FieldKind)} {value : Value}

theorem firstOverflow_nil : ¬ FirstOverflow printable members [] := by
  rintro ⟨before, key, kind, after, hfields, _⟩
  simp at hfields

theorem firstOverflow_cons {kind : FieldKind} :
    FirstOverflow printable members ((key, kind) :: rest) ↔
      ∃ value, member? members key = some value ∧ (kind.Overflows value ∨
        kind.Takes printable value ∧ FirstOverflow printable members rest) := by
  constructor
  · rintro ⟨before, found, foundKind, after, hfields, hbefore, value, hvalue, hoverflows⟩
    cases before with
    | nil =>
        cases hfields
        exact ⟨value, hvalue, Or.inl hoverflows⟩
    | cons first others =>
        cases hfields
        obtain ⟨earlier, hearlier, htakes⟩ := hbefore _ List.mem_cons_self
        exact ⟨earlier, hearlier, Or.inr ⟨htakes, others, found, foundKind, after, rfl,
          fun field hfield => hbefore field (List.mem_cons_of_mem _ hfield), value, hvalue,
          hoverflows⟩⟩
  · rintro ⟨value, hvalue, hoverflows | ⟨htakes, before, found, foundKind, after, rfl, hbefore,
      hfound⟩⟩
    · exact ⟨[], key, kind, rest, rfl, by simp, value, hvalue, hoverflows⟩
    · refine ⟨(key, kind) :: before, found, foundKind, after, rfl, ?_, hfound⟩
      intro earlier hearlier
      rcases List.mem_cons.mp hearlier with rfl | hearlier
      · exact ⟨value, hvalue, htakes⟩
      · exact hbefore earlier hearlier

/-- A member is looked up, read, and followed by the rest of the members. -/
theorem escapes_field {reader : Value → Attempt α} {next : α → Attempt β} {kind : FieldKind}
    (hescapes : ∀ value, Escapes (reader value) ↔ kind.Overflows value)
    (hreads : ∀ value, Reads (reader value) ↔ kind.Takes printable value)
    (hnext : ∀ result, Escapes (next result) ↔ FirstOverflow printable members rest) :
    Escapes (item members key >>= fun value => reader value >>= next) ↔
      FirstOverflow printable members ((key, kind) :: rest) := by
  simp only [@escapes_bind _ _ (item members key), not_escapes raises_item, false_or, item_eq_ok,
    escapes_reads_bind hnext, hescapes, hreads, firstOverflow_cons]

theorem escapes_present {next : Value → Attempt β}
    (hnext : ∀ value, Escapes (next value) ↔ FirstOverflow printable members rest) :
    Escapes (item members key >>= next) ↔
      FirstOverflow printable members ((key, .present) :: rest) := by
  simp only [escapes_bind, not_escapes raises_item, false_or, item_eq_ok, hnext, firstOverflow_cons,
    FieldKind.Overflows, FieldKind.Takes, true_and]

theorem escapes_text {next : Str → Attempt β}
    (hnext : ∀ text, Escapes (next text) ↔ FirstOverflow printable members rest) :
    Escapes (item members key >>= fun value => value.str printable >>= next) ↔
      FirstOverflow printable members ((key, .text) :: rest) :=
  escapes_field (fun _ => iff_of_false (not_escapes (raises_str _)) id) (fun _ => Iff.rfl) hnext

theorem escapes_count {next : ℤ → Attempt β}
    (hnext : ∀ count, Escapes (next count) ↔ FirstOverflow printable members rest) :
    Escapes (item members key >>= fun value => value.toInt >>= next) ↔
      FirstOverflow printable members ((key, .count) :: rest) :=
  escapes_field (fun _ => escapes_toInt) (fun _ => Iff.rfl) hnext

theorem escapes_number {next : Binary64 → Attempt β}
    (hnext : ∀ number, Escapes (next number) ↔ FirstOverflow printable members rest) :
    Escapes (item members key >>= fun value => value.toFloat >>= next) ↔
      FirstOverflow printable members ((key, .number) :: rest) :=
  escapes_field (fun _ => escapes_toFloat) (fun _ => Iff.rfl) hnext

theorem escapes_enum [StrEnum α] {next : α → Attempt β} {kind : FieldKind}
    (hkind : ∀ value, (kind.Overflows value ↔ False) ∧
      (kind.Takes printable value ↔ ∃ member : α, value = textValue (StrEnum.value member)))
    (hnext : ∀ member, Escapes (next member) ↔ FirstOverflow printable members rest) :
    Escapes (item members key >>= fun value => enumValue α value >>= next) ↔
      FirstOverflow printable members ((key, kind) :: rest) := by
  refine escapes_field (fun value => ?_) (fun value => ?_) hnext
  · exact iff_of_false (not_escapes (raises_enumValue rfl)) (hkind value).1.mp
  · rw [(hkind value).2]
    cases value with
    | string codes =>
        simp only [Reads, enumValue, orRaise_eq_ok, StrEnum.parseCodes?_eq_some, textValue,
          Value.string.injEq, @eq_comm _ codes]
    | _ => simp [Reads, enumValue, textValue]

theorem escapes_action {next : AiModerationAction → Attempt β}
    (hnext : ∀ action, Escapes (next action) ↔ FirstOverflow printable members rest) :
    Escapes (item members key >>= fun value => enumValue AiModerationAction value >>= next) ↔
      FirstOverflow printable members ((key, .action) :: rest) :=
  escapes_enum (fun _ => ⟨Iff.rfl, Iff.rfl⟩) hnext

theorem escapes_mode {next : AiModerationEnforcementMode → Attempt β}
    (hnext : ∀ mode, Escapes (next mode) ↔ FirstOverflow printable members rest) :
    Escapes (item members key >>= fun value =>
        enumValue AiModerationEnforcementMode value >>= next) ↔
      FirstOverflow printable members ((key, .mode) :: rest) :=
  escapes_enum (fun _ => ⟨Iff.rfl, Iff.rfl⟩) hnext

theorem escapes_flag {next : Bool → Attempt β}
    (hnext : ∀ flag, Escapes (next flag) ↔ FirstOverflow printable members rest) :
    Escapes (requiredBool members key >>= next) ↔
      FirstOverflow printable members ((key, .flag) :: rest) := by
  rw [requiredBool, bind_assoc]
  refine escapes_field (fun value => ?_) (fun value => ?_) hnext
  · exact iff_of_false (not_escapes raises_value) id
  · simp only [Reads, orRaise_eq_ok, Value.bool?_eq_some, FieldKind.Takes]

theorem raises_stringTuple : Raises isHandled (stringTuple printable value) := by
  refine raises_value.bind fun items => (raises_require rfl).bind fun _ => ?_
  exact raises_mapM fun item => raises_str item

theorem reads_stringTuple :
    Reads (stringTuple printable value) ↔ FieldKind.texts.Takes printable value := by
  unfold stringTuple require
  simp only [Reads, FieldKind.Takes, bind_eq_ok, orRaise_eq_ok, Value.array?_eq_some]
  constructor
  · rintro ⟨texts, items, hitems, _, hall, htexts⟩
    have htexts := exists_of_mapM_eq_ok htexts
    split_ifs at hall with hkinds
    exact ⟨items, hitems, fun item hitem =>
      ⟨List.all_eq_true.mp hkinds item hitem, htexts item hitem⟩⟩
  · rintro ⟨items, hitems, hall⟩
    obtain ⟨texts, htexts⟩ := exists_mapM_eq_ok fun item hitem => (hall item hitem).2
    refine ⟨texts, items, hitems, (), ?_, htexts⟩
    rw [if_pos (List.all_eq_true.mpr fun item hitem => (hall item hitem).1)]

theorem escapes_texts {next : List Str → Attempt β}
    (hnext : ∀ texts, Escapes (next texts) ↔ FirstOverflow printable members rest) :
    Escapes (item members key >>= fun value => stringTuple printable value >>= next) ↔
      FirstOverflow printable members ((key, .texts) :: rest) :=
  escapes_field (fun _ => iff_of_false (not_escapes raises_stringTuple) id)
    (fun _ => reads_stringTuple) hnext

end Fields

/-- The members of the moderation summary, in the order in which they are read. -/
def summaryFields : List (String × FieldKind) :=
  [("enforcement_mode", .text), ("test_mode", .present), ("is_default_policy", .present),
    ("covered_channel_count", .count), ("log_channel_configured", .present),
    ("label_count", .count), ("blacklist_word_count", .count), ("allowed_domain_count", .count),
    ("automated_timeout_enabled", .present), ("automated_kick_enabled", .present),
    ("automated_ban_enabled", .present)]

/-- A moderation summary in which an infinite count comes before every other fault. -/
def SummaryOverflows (printable : Printable) (payload : Value) : Prop :=
  ∃ summary, objectAt? payload "summary" = some summary ∧
    FirstOverflow printable summary summaryFields

theorem failsClosed_aiModerationSummary (printable : Printable) (payload : Value) :
    FailsClosed (parseDiscordAiModerationSummary printable payload) ↔
      ¬ SummaryOverflows printable payload := by
  rw [parseDiscordAiModerationSummary, failsClosed_parser_iff]
  simp only [raises_isHandled, SummaryOverflows, not_exists, not_and]
  refine forall_congr' fun summary => imp_congr_right fun _ => not_congr ?_
  refine escapes_text fun enforcementMode => escapes_present fun testMode => ?_
  refine escapes_present fun isDefaultPolicy => escapes_count fun coveredChannelCount => ?_
  refine escapes_present fun logChannelConfigured => escapes_count fun labelCount => ?_
  refine escapes_count fun blacklistWordCount => escapes_count fun allowedDomainCount => ?_
  refine escapes_present fun timeout => escapes_present fun kick => escapes_present fun ban => ?_
  exact iff_of_false (not_escapes (raises_constructed rfl)) firstOverflow_nil

/-- The members of the moderation policy after its labels, in the order in which they are read. -/
def policyFields : List (String × FieldKind) :=
  [("blacklist_words", .texts), ("allowed_domains", .texts), ("blacklist_action", .action),
    ("unapproved_domain_action", .action), ("context_window_days", .count),
    ("repeat_offender_threshold", .count), ("repeat_offender_action", .action),
    ("escalation_enabled", .flag), ("escalation_score_threshold", .number),
    ("escalation_half_life_days", .number), ("excluded_user_ids", .texts),
    ("excluded_role_ids", .texts), ("excluded_channel_ids", .texts), ("exclude_bots", .flag),
    ("ocr_enabled", .flag), ("ocr_failure_mode", .text), ("ocr_max_gif_frames", .count),
    ("ocr_process_empty_result", .flag), ("test_mode", .flag), ("enforcement_mode", .mode),
    ("limited_min_confidence", .number), ("limited_hard_rule_labels", .texts),
    ("beta_enforcement_acknowledged", .flag), ("allow_automated_timeout", .flag),
    ("allow_automated_kick", .flag), ("allow_automated_ban", .flag)]

/-- A label whose threshold is an integer beyond the doubles. -/
def RuleOverflows (rule : Members) : Prop :=
  ∃ threshold, member? rule "risk_threshold" = some threshold ∧ IsTooLarge threshold

/-- A label with a threshold and two actions that belong together. -/
def ReadableRule (rule : Members) : Prop :=
  ∃ threshold number minAction maxAction, member? rule "risk_threshold" = some threshold ∧
    threshold.toFloat = .ok number ∧
    member? rule "min_action" = some (textValue (StrEnum.value minAction)) ∧
    member? rule "max_action" = some (textValue (StrEnum.value maxAction)) ∧
    AiModerationLabelRuleFields.postInit ⟨number, minAction, maxAction⟩ = none

/-- Labels in which an overflowing threshold comes before every other fault. -/
def LabelsOverflow (labels : Value) : Prop :=
  ∃ entries, labels = .object entries ∧
    ∃ before entry after, ruleEntries entries = before ++ entry :: after ∧
      (∀ earlier ∈ before, ReadableRule earlier.2) ∧ RuleOverflows entry.2

/-- Labels all of which are readable. -/
def ReadableLabels (labels : Value) : Prop :=
  ∃ rules : List (Str × Members),
    labels = .object (rules.map fun rule => (rule.1, .object rule.2)) ∧
    (rules.map Prod.fst).Nodup ∧ ∀ rule ∈ rules, ReadableRule rule.2

/-- A policy in which an overflowing member comes before every other fault. -/
def PolicyOverflows (printable : Printable) (payload : Value) : Prop :=
  ∃ members policy labels, policyShape? payload = some (members, policy) ∧
    member? policy "labels" = some labels ∧
    (LabelsOverflow labels ∨ ReadableLabels labels ∧ FirstOverflow printable policy policyFields)

section Policy

variable {entry : Str × Members} {entries : Members} {labels : Value}

theorem enumValue_eq_ok {α : Type} [StrEnum α] {value : Value} {member : α} :
    enumValue α value = .ok member ↔ value = textValue (StrEnum.value member) := by
  cases value with
  | string codes =>
      simp only [enumValue, orRaise_eq_ok, StrEnum.parseCodes?_eq_some, textValue,
        Value.string.injEq, @eq_comm _ codes]
  | _ => simp [enumValue, textValue]

theorem escapes_labelRule : Escapes (labelRule entry) ↔ RuleOverflows entry.2 := by
  have hlast : ∀ threshold minValue, ¬ Escapes (enumValue AiModerationAction minValue >>= fun low =>
      item entry.2 "max_action" >>= fun maxValue =>
      enumValue AiModerationAction maxValue >>= fun high =>
      constructed (Validated.make AiModerationLabelRuleFields.postInit ⟨threshold, low, high⟩) >>=
      fun made => (pure (entry.1, made) : Attempt (Str × AiModerationLabelRule))) := by
    intro threshold minValue
    refine not_escapes ((raises_enumValue rfl).bind fun low => raises_item.bind fun maxValue => ?_)
    refine (raises_enumValue rfl).bind fun high => (raises_constructed rfl).bind fun made => ?_
    exact raises_pure (entry.1, made)
  unfold labelRule RuleOverflows
  simp only [@escapes_bind _ _ (item entry.2 _), @escapes_bind _ _ (Value.toFloat _),
    not_escapes raises_item, false_or, item_eq_ok, escapes_toFloat, hlast, and_false, exists_false,
    or_false]

theorem reads_labelRule : Reads (labelRule entry) ↔ ReadableRule entry.2 := by
  unfold labelRule ReadableRule
  constructor
  · rintro ⟨result, hresult⟩
    simp only [bind_eq_ok, item_eq_ok, enumValue_eq_ok] at hresult
    obtain ⟨threshold, hthreshold, number, hnumber, _, hmin, minAction, rfl, _, hmax, maxAction,
      rfl, made, hmade, _⟩ := hresult
    exact ⟨threshold, number, minAction, maxAction, hthreshold, hnumber, hmin, hmax,
      reads_constructed.mp ⟨made, hmade⟩⟩
  · rintro ⟨threshold, number, minAction, maxAction, hthreshold, hnumber, hmin, hmax, haccepted⟩
    obtain ⟨made, hmade⟩ := reads_constructed.mpr haccepted
    refine ⟨(entry.1, made), ?_⟩
    simp only [bind_eq_ok, item_eq_ok, enumValue_eq_ok]
    exact ⟨threshold, hthreshold, number, hnumber, _, hmin, minAction, rfl, _, hmax, maxAction, rfl,
      made, hmade, rfl⟩

theorem escapes_labelRules : Escapes (labelRules labels) ↔ LabelsOverflow labels := by
  have hlast : ∀ (rules : List (Str × AiModerationLabelRule)) (entries : Members), ¬ Escapes
      (require ((Dict.ofList rules).length = entries.length) >>= fun _ =>
        (pure (Dict.ofList rules) : Attempt (Dict Str AiModerationLabelRule))) :=
    fun rules entries => not_escapes ((raises_require rfl).bind fun _ => raises_pure _)
  unfold labelRules LabelsOverflow
  simp only [@escapes_bind _ _ (orRaise _ _), @escapes_bind _ _ (List.mapM _ _),
    not_escapes raises_value, false_or, orRaise_eq_ok, Value.object?_eq_some, hlast, and_false,
    exists_false, or_false, escapes_mapM, escapes_labelRule, ← reads_labelRule, Reads]

theorem ruleEntries_objects (rules : List (Str × Members)) :
    ruleEntries (rules.map fun rule => (rule.1, .object rule.2)) = rules := by
  rw [ruleEntries, List.filterMap_map]
  exact List.filterMap_some

/-- No entry is left out only if all of them are objects. -/
theorem eq_objects_of_length (hlength : (ruleEntries entries).length = entries.length) :
    entries = (ruleEntries entries).map fun rule => (rule.1, .object rule.2) := by
  induction entries with
  | nil => rfl
  | cons head tail ih =>
      obtain ⟨key, value⟩ := head
      have hshorter : (ruleEntries tail).length ≤ tail.length := List.length_filterMap_le _ _
      cases hvalue : value.object? with
      | none =>
          have hskipped : ruleEntries ((key, value) :: tail) = ruleEntries tail := by
            rw [ruleEntries, List.filterMap_cons, hvalue]
            rfl
          rw [hskipped, List.length_cons] at hlength
          omega
      | some rule =>
          have hkept : ruleEntries ((key, value) :: tail) = (key, rule) :: ruleEntries tail := by
            rw [ruleEntries, List.filterMap_cons, hvalue]
            rfl
          rw [hkept, List.length_cons, List.length_cons, Nat.add_right_cancel_iff] at hlength
          rw [hkept, List.map_cons, ← ih hlength, Value.object?_eq_some.mp hvalue]

theorem reads_labelRules : Reads (labelRules labels) ↔ ReadableLabels labels := by
  unfold labelRules ReadableLabels
  constructor
  · rintro ⟨result, hresult⟩
    simp only [bind_eq_ok, orRaise_eq_ok, Value.object?_eq_some] at hresult
    obtain ⟨entries, rfl, pairs, hpairs, _, hrequire, _⟩ := hresult
    have hkeys : pairs.map Prod.fst = (ruleEntries entries).map Prod.fst := by
      refine map_of_mapM_eq_ok (fun entry pair hpair => ?_) hpairs
      simp only [labelRule, bind_eq_ok] at hpair
      obtain ⟨_, _, _, _, _, _, _, _, _, _, _, _, made, _, hmade⟩ := hpair
      cases hmade
      rfl
    have hlength : (Dict.ofList pairs).length = entries.length := by
      unfold require at hrequire
      split_ifs at hrequire with hequal
      exact of_decide_eq_true hequal
    have hpairsLength : pairs.length = (ruleEntries entries).length := by
      simpa using congrArg List.length hkeys
    have hdistinct := Dict.length_ofList_le pairs
    have hobjects : (ruleEntries entries).length ≤ entries.length := List.length_filterMap_le _ _
    refine ⟨ruleEntries entries, ?_, ?_, ?_⟩
    · exact congrArg Value.object (eq_objects_of_length (by omega))
    · rw [← hkeys]
      exact Dict.length_ofList_eq.mp (by omega)
    · exact fun entry hentry => reads_labelRule.mp (exists_of_mapM_eq_ok hpairs entry hentry)
  · rintro ⟨rules, rfl, hdistinct, hrules⟩
    obtain ⟨pairs, hpairs⟩ := exists_mapM_eq_ok fun rule hrule =>
      reads_labelRule.mpr (hrules rule hrule)
    have hkeys : pairs.map Prod.fst = rules.map Prod.fst := by
      refine map_of_mapM_eq_ok (fun entry pair hpair => ?_) hpairs
      simp only [labelRule, bind_eq_ok] at hpair
      obtain ⟨_, _, _, _, _, _, _, _, _, _, _, _, made, _, hmade⟩ := hpair
      cases hmade
      rfl
    refine ⟨Dict.ofList pairs, ?_⟩
    simp only [bind_eq_ok, orRaise_eq_ok, Value.object?_eq_some, Value.object.injEq,
      exists_eq_left', ruleEntries_objects]
    refine ⟨pairs, hpairs, (), ?_, rfl⟩
    have hlength : (Dict.ofList pairs).length = pairs.length :=
      Dict.length_ofList_eq.mpr (hkeys ▸ hdistinct)
    rw [require, if_pos]
    rw [hlength, List.length_map, decide_eq_true_eq]
    simpa using congrArg List.length hkeys

theorem escapes_aiModerationPolicyState {printable : Printable} {members policy : Members} :
    Escapes (aiModerationPolicyState printable members policy) ↔
      ∃ labels, member? policy "labels" = some labels ∧
        (LabelsOverflow labels ∨ ReadableLabels labels ∧
          FirstOverflow printable policy policyFields) := by
  rw [aiModerationPolicyState, escapes_bind]
  simp only [not_escapes raises_item, false_or, item_eq_ok]
  refine exists_congr fun labels => and_congr_right fun _ => ?_
  refine (escapes_reads_bind fun rules => ?_).trans
    (or_congr escapes_labelRules (and_congr_left' reads_labelRules))
  refine escapes_texts fun _ => escapes_texts fun _ => escapes_action fun _ => ?_
  refine escapes_action fun _ => escapes_count fun _ => escapes_count fun _ => ?_
  refine escapes_action fun _ => escapes_flag fun _ => escapes_number fun _ => ?_
  refine escapes_number fun _ => escapes_texts fun _ => escapes_texts fun _ => ?_
  refine escapes_texts fun _ => escapes_flag fun _ => escapes_flag fun _ => ?_
  refine escapes_text fun _ => escapes_count fun _ => escapes_flag fun _ => ?_
  refine escapes_flag fun _ => escapes_mode fun _ => escapes_number fun _ => ?_
  refine escapes_texts fun _ => escapes_flag fun _ => escapes_flag fun _ => ?_
  refine escapes_flag fun _ => escapes_flag fun _ => iff_of_false (not_escapes ?_) firstOverflow_nil
  refine (raises_constructed rfl).bind fun made => Raises.bind ?_ fun isDefault => raises_pure _
  exact raises_item.bind fun value => raises_value

theorem failsClosed_aiModerationPolicy (printable : Printable) (payload : Value) :
    FailsClosed (parseDiscordAiModerationPolicy printable payload) ↔
      ¬ PolicyOverflows printable payload := by
  rw [parseDiscordAiModerationPolicy, failsClosed_parser_iff]
  simp only [raises_isHandled, escapes_aiModerationPolicyState, PolicyOverflows]
  constructor
  · rintro hcloses ⟨members, policy, labels, hshape, hlabels, hoverflows⟩
    exact hcloses (members, policy) hshape ⟨labels, hlabels, hoverflows⟩
  · rintro hcloses ⟨members, policy⟩ hshape ⟨labels, hlabels, hoverflows⟩
    exact hcloses ⟨members, policy, labels, hshape, hlabels, hoverflows⟩

end Policy

/-- Each of the parsers gives a value, whose type carries the checks of its constructor, or raises
`PlatformControlUnavailableError`. -/
structure AnswersFailClosed (tables : CharacterTables) (printable : Printable) (payload : Value) :
    Prop where
  modules : FailsClosed (parseDiscordModules payload)
  health : FailsClosed (parseDiscordHealth tables payload)
  dashboard : FailsClosed (parseDiscordDashboard payload)
  serverStatistics : FailsClosed (parseDiscordServerStatistics payload)
  auditTimeline : FailsClosed (parseDiscordAuditTimeline payload)
  botSettings : FailsClosed (parseDiscordBotSettings payload)
  integrations : FailsClosed (parseDiscordIntegrations printable payload)
  channelCatalog : FailsClosed (parseDiscordChannelCatalog payload)
  channelPurposes : FailsClosed (parseDiscordChannelPurposes payload)
  aiModerationSummary : FailsClosed (parseDiscordAiModerationSummary printable payload)
  welcomeSettings : FailsClosed (parseDiscordWelcomeSettings payload)
  aiModerationPolicy : FailsClosed (parseDiscordAiModerationPolicy printable payload)
  reconciliation : FailsClosed (parseConnectionReconciliationDecision payload)

/-- Eight parsers fail closed on every answer, and each of the other five on those answers that it
does not stumble over. -/
structure ParserByParser (tables : CharacterTables) (printable : Printable) (payload : Value) :
    Prop where
  modules : FailsClosed (parseDiscordModules payload)
  health : FailsClosed (parseDiscordHealth tables payload)
  dashboard : FailsClosed (parseDiscordDashboard payload)
  serverStatistics : FailsClosed (parseDiscordServerStatistics payload)
  auditTimeline : FailsClosed (parseDiscordAuditTimeline payload) ↔ ¬ TimelineEscapes payload
  botSettings : FailsClosed (parseDiscordBotSettings payload)
  integrations : FailsClosed (parseDiscordIntegrations printable payload) ↔
    ¬ IntegrationsEscape printable payload
  channelCatalog : FailsClosed (parseDiscordChannelCatalog payload) ↔ ¬ CatalogEscapes payload
  channelPurposes : FailsClosed (parseDiscordChannelPurposes payload)
  aiModerationSummary : FailsClosed (parseDiscordAiModerationSummary printable payload) ↔
    ¬ SummaryOverflows printable payload
  welcomeSettings : FailsClosed (parseDiscordWelcomeSettings payload)
  aiModerationPolicy : FailsClosed (parseDiscordAiModerationPolicy printable payload) ↔
    ¬ PolicyOverflows printable payload
  reconciliation : FailsClosed (parseConnectionReconciliationDecision payload)

theorem parserByParser (tables : CharacterTables) (printable : Printable) (payload : Value) :
    ParserByParser tables printable payload where
  modules := failsClosed_modules payload
  health := failsClosed_health tables payload
  dashboard := failsClosed_dashboard payload
  serverStatistics := failsClosed_serverStatistics payload
  auditTimeline := failsClosed_auditTimeline payload
  botSettings := failsClosed_botSettings payload
  integrations := failsClosed_integrations
  channelCatalog := failsClosed_channelCatalog payload
  channelPurposes := failsClosed_channelPurposes payload
  aiModerationSummary := failsClosed_aiModerationSummary printable payload
  welcomeSettings := failsClosed_welcomeSettings payload
  aiModerationPolicy := failsClosed_aiModerationPolicy printable payload
  reconciliation := failsClosed_reconciliation payload

/-- An answer that none of the five parsers stumbles over. -/
structure Sound (printable : Printable) (payload : Value) : Prop where
  timeline : ¬ TimelineEscapes payload
  integrations : ¬ IntegrationsEscape printable payload
  catalog : ¬ CatalogEscapes payload
  summary : ¬ SummaryOverflows printable payload
  policy : ¬ PolicyOverflows printable payload

theorem ParserByParser.answersFailClosed {tables : CharacterTables} {printable : Printable}
    {payload : Value} (heach : ParserByParser tables printable payload) :
    AnswersFailClosed tables printable payload ↔ Sound printable payload := by
  constructor
  · intro hcloses
    exact {
      timeline := heach.auditTimeline.mp hcloses.auditTimeline
      integrations := heach.integrations.mp hcloses.integrations
      catalog := heach.channelCatalog.mp hcloses.channelCatalog
      summary := heach.aiModerationSummary.mp hcloses.aiModerationSummary
      policy := heach.aiModerationPolicy.mp hcloses.aiModerationPolicy }
  · intro hsound
    exact {
      modules := heach.modules
      health := heach.health
      dashboard := heach.dashboard
      serverStatistics := heach.serverStatistics
      auditTimeline := heach.auditTimeline.mpr hsound.timeline
      botSettings := heach.botSettings
      integrations := heach.integrations.mpr hsound.integrations
      channelCatalog := heach.channelCatalog.mpr hsound.catalog
      channelPurposes := heach.channelPurposes
      aiModerationSummary := heach.aiModerationSummary.mpr hsound.summary
      welcomeSettings := heach.welcomeSettings
      aiModerationPolicy := heach.aiModerationPolicy.mpr hsound.policy
      reconciliation := heach.reconciliation }

/-- What every answer makes of every parser, and which answers make all of them fail closed. -/
theorem answers_fail_closed_iff_sound (tables : CharacterTables) (printable : Printable)
    (payload : Value) :
    ParserByParser tables printable payload ∧
      (AnswersFailClosed tables printable payload ↔ Sound printable payload) :=
  ⟨parserByParser tables printable payload,
    (parserByParser tables printable payload).answersFailClosed⟩

/-- A timeline with one event whose type is a number. -/
def numberedEventTimeline : Value :=
  .object [(codesOf "timeline", .object
    [(codesOf "items", .array [.object [(codesOf "event_type", .int 5),
      (codesOf "occurred_at", textValue "2024-01-01")]]),
    (codesOf "limit", .int 50)])]

/-- A moderation summary that covers infinitely many channels. -/
def infiniteSummary : Value :=
  .object [(codesOf "summary", .object
    [(codesOf "enforcement_mode", textValue "SHADOW"), (codesOf "test_mode", .bool false),
    (codesOf "is_default_policy", .bool true),
    (codesOf "covered_channel_count", .float (.infinite false))])]

/-- The `AttributeError` of the timeline and the `OverflowError` of the summary escape. -/
theorem discord_exceptions_escape :
    parseDiscordAuditTimeline numberedEventTimeline = .error (.escaped .attributeError) ∧
      parseDiscordAiModerationSummary (fun _ => true) infiniteSummary =
        .error (.escaped .overflowError) ∧
      ¬ ∀ tables printable payload, AnswersFailClosed tables printable payload := by
  have htimeline : parseDiscordAuditTimeline numberedEventTimeline =
      .error (.escaped .attributeError) := rfl
  refine ⟨htimeline, rfl, fun hall => ?_⟩
  have hcloses := hall ⟨fun _ => true, fun code => [code]⟩ (fun _ => true) numberedEventTimeline
  exact hcloses.auditTimeline _ htimeline

end MuxivoConsole.Control
