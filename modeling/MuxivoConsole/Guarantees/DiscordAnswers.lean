/-
Which exceptions leave the parsers of the Discord Control API: eight of them fail closed on every
answer, and the other five on all answers but those in which a value is reached that a conversion
or a constructor does not take and the handler does not know.
-/
import MuxivoConsole.Infrastructure.DiscordPolicies

namespace MuxivoConsole.Control

open Json Mapping Text

/-- A parser gives a value or raises `PlatformControlUnavailableError`. -/
def FailsClosed {α : Type} (outcome : Except ControlException α) : Prop :=
  ∀ error, outcome ≠ .error (.escaped error)

/-- A body raises nothing but the handled classes. -/
def Raises {α : Type} (classes : PythonError → Bool) (body : Attempt α) : Prop :=
  ∀ error, body = .error error → classes error = true

/-- A body raises an exception that the handler does not know. -/
def Escapes {α : Type} (body : Attempt α) : Prop :=
  ∃ error, body = .error error ∧ isHandled error = false

section Handlers

variable {α β σ : Type} {classes : PythonError → Bool} {body : Attempt α}
  {next : α → Attempt β} {message mismatch : String}

theorem failsClosed_handled : FailsClosed (handled classes message body) ↔ Raises classes body := by
  cases body with
  | ok value => simp [FailsClosed, handled, Raises]
  | error error =>
      cases hclass : classes error with
      | false => simp [FailsClosed, handled, Raises, hclass]
      | true => simp [FailsClosed, handled, Raises, hclass]

theorem failsClosed_parser_iff {shape : Option σ} {reader : σ → Attempt α} :
    FailsClosed (parser shape mismatch message reader classes) ↔
      ∀ payload, shape = some payload → Raises classes (reader payload) := by
  cases shape with
  | none => simp [FailsClosed, parser]
  | some payload =>
      rw [parser, failsClosed_handled]
      simp

theorem raises_isHandled : Raises isHandled body ↔ ¬ Escapes body := by
  simp only [Raises, Escapes, not_exists, not_and, Bool.not_eq_false]

theorem Raises.bind (hbody : Raises classes body) (hnext : ∀ value, Raises classes (next value)) :
    Raises classes (body >>= next) := by
  intro error herror
  rcases bind_eq_error.mp herror with herror | ⟨value, _, herror⟩
  · exact hbody error herror
  · exact hnext value error herror

theorem Raises.map {f : α → β} (hbody : Raises classes body) : Raises classes (body.map f) := by
  intro error herror
  cases hresult : body with
  | error raised =>
      rw [hresult] at herror
      cases herror
      exact hbody _ hresult
  | ok value =>
      rw [hresult] at herror
      cases herror

theorem raises_ok (value : α) : Raises classes (.ok value : Attempt α) := by
  intro error herror
  cases herror

theorem raises_pure (value : α) : Raises classes (pure value : Attempt α) :=
  raises_ok value

theorem raises_orRaise {error : PythonError} {value : Option α} (hclass : classes error = true) :
    Raises classes (orRaise error value) := by
  cases value with
  | none =>
      intro raised hraised
      cases hraised
      exact hclass
  | some value => exact raises_ok value

theorem raises_require {condition : Bool} (hclass : classes .valueError = true) :
    Raises classes (require condition) := by
  intro error herror
  unfold require at herror
  split_ifs at herror
  cases herror
  exact hclass

theorem raises_constructed {result : Except String α} (hclass : classes .valueError = true) :
    Raises classes (constructed result) := by
  cases result with
  | ok value => exact raises_ok value
  | error message =>
      intro error herror
      cases herror
      exact hclass

theorem raises_enumValue [StrEnum α] {value : Value} (hclass : classes .valueError = true) :
    Raises classes (enumValue α value) := by
  cases value with
  | string codes => exact raises_orRaise hclass
  | _ =>
      intro error herror
      cases herror
      exact hclass

theorem raises_optional {kind : Value → Option α} {value : Value}
    (hclass : classes .valueError = true) : Raises classes (optional kind value) := by
  intro error herror
  unfold optional at herror
  split at herror
  · cases herror
  · cases hkind : kind value with
    | none =>
        rw [hkind] at herror
        cases herror
        exact hclass
    | some kept =>
        rw [hkind] at herror
        cases herror

theorem raises_mapM {reader : σ → Attempt α} {items : List σ}
    (hreader : ∀ item, Raises classes (reader item)) : Raises classes (items.mapM reader) := by
  intro error herror
  obtain ⟨_, item, _, _, _, hitem⟩ := mapM_eq_error.mp herror
  exact hreader item error hitem

/-- A lookup raises a `KeyError` at most. -/
theorem raises_item {members : Members} {key : String} : Raises isHandled (item members key) :=
  raises_orRaise rfl

theorem raises_value {value : Option α} : Raises isHandled (orRaise .valueError value) :=
  raises_orRaise rfl

end Handlers

section FailClosed

theorem failsClosed_modules (payload : Value) : FailsClosed (parseDiscordModules payload) := by
  refine failsClosed_parser_iff.mpr fun items _ => raises_mapM fun entry => ?_
  refine raises_value.bind fun members => raises_value.bind fun key => ?_
  refine raises_value.bind fun displayName => raises_value.bind fun platform => ?_
  refine raises_value.bind fun capability => raises_value.bind fun status => ?_
  refine (raises_enumValue rfl).bind fun platform => ?_
  refine (raises_enumValue rfl).bind fun capability => ?_
  refine (raises_enumValue rfl).bind fun status => (raises_constructed rfl).bind fun result => ?_
  exact (raises_require rfl).bind fun _ => raises_pure result

theorem failsClosed_health (tables : CharacterTables) (payload : Value) :
    FailsClosed (parseDiscordHealth tables payload) := by
  refine failsClosed_parser_iff.mpr fun signals _ => raises_mapM fun entry => ?_
  refine raises_value.bind fun members => raises_item.bind fun name => ?_
  refine raises_item.bind fun value => raises_item.bind fun status => ?_
  refine raises_value.bind fun name => raises_value.bind fun value => ?_
  refine raises_value.bind fun status => (raises_optional rfl).bind fun latencyMs => ?_
  exact (raises_enumValue rfl).bind fun status => raises_constructed rfl

theorem failsClosed_reconciliation (payload : Value) :
    FailsClosed (parseConnectionReconciliationDecision payload) := by
  refine failsClosed_parser_iff.mpr fun members _ => ?_
  refine raises_item.bind fun targetStatus => raises_item.bind fun reason => ?_
  refine raises_value.bind fun targetStatus => raises_value.bind fun reason => ?_
  refine (raises_enumValue rfl).bind fun targetStatus => ?_
  refine (raises_enumValue rfl).bind fun reason => ?_
  intro error herror
  unfold reconciliationDecision at herror
  split_ifs at herror
  cases herror
  rfl

theorem failsClosed_dashboard (payload : Value) : FailsClosed (parseDiscordDashboard payload) := by
  refine failsClosed_parser_iff.mpr fun metrics _ => ?_
  refine raises_item.bind fun _ => raises_item.bind fun _ => raises_item.bind fun _ => ?_
  refine raises_value.bind fun _ => raises_value.bind fun _ => raises_value.bind fun _ => ?_
  exact (raises_optional rfl).bind fun _ => raises_constructed rfl

theorem failsClosed_serverStatistics (payload : Value) :
    FailsClosed (parseDiscordServerStatistics payload) := by
  refine failsClosed_parser_iff.mpr fun summary _ => ?_
  refine raises_item.bind fun _ => raises_item.bind fun _ => raises_item.bind fun _ => ?_
  refine raises_item.bind fun _ => raises_item.bind fun _ => raises_item.bind fun _ => ?_
  refine raises_item.bind fun _ => raises_item.bind fun _ => raises_item.bind fun _ => ?_
  refine raises_value.bind fun _ => raises_value.bind fun _ => raises_value.bind fun _ => ?_
  refine raises_value.bind fun _ => raises_value.bind fun _ => raises_value.bind fun _ => ?_
  refine raises_value.bind fun _ => raises_value.bind fun _ => raises_value.bind fun _ => ?_
  exact raises_constructed rfl

theorem failsClosed_botSettings (payload : Value) :
    FailsClosed (parseDiscordBotSettings payload) := by
  refine failsClosed_parser_iff.mpr fun settings _ => ?_
  refine raises_item.bind fun _ => raises_item.bind fun _ => raises_item.bind fun _ => ?_
  refine raises_item.bind fun _ => raises_value.bind fun _ => raises_value.bind fun _ => ?_
  refine raises_value.bind fun _ => raises_value.bind fun _ => Raises.bind ?_ fun _ => ?_
  · exact raises_mapM fun entry => raises_value.bind fun days => raises_pure (entry.1, days)
  · exact raises_constructed rfl

theorem failsClosed_channelPurposes (payload : Value) :
    FailsClosed (parseDiscordChannelPurposes payload) := by
  refine failsClosed_parser_iff.mpr fun items _ => ?_
  refine Raises.bind ?_ fun assignments => Raises.bind ?_ fun texts => raises_constructed rfl
  · exact raises_mapM fun entry => (raises_enumValue rfl).bind fun purpose =>
      raises_pure (purpose, entry.2)
  · exact raises_mapM fun entry => (raises_orRaise rfl).bind fun channelId =>
      raises_pure (entry.1, channelId)

theorem failsClosed_welcomeSettings (payload : Value) :
    FailsClosed (parseDiscordWelcomeSettings payload) := by
  refine failsClosed_parser_iff.mpr fun settings _ => ?_
  refine raises_item.bind fun _ => raises_item.bind fun _ => raises_item.bind fun _ => ?_
  refine raises_item.bind fun _ => raises_value.bind fun _ => raises_value.bind fun _ => ?_
  refine raises_value.bind fun _ => raises_value.bind fun _ => ?_
  refine (raises_optional rfl).bind fun _ => (raises_optional rfl).bind fun _ => ?_
  refine (raises_optional rfl).bind fun _ => (raises_optional rfl).bind fun _ => ?_
  refine (raises_optional rfl).bind fun _ => ?_
  exact raises_constructed rfl

end FailClosed

/-- A text that is there and not blank. -/
def HasText (members : Members) (key : String) : Prop :=
  ∃ text, member? members key = some (.string text) ∧ isBlankStr text = false

/-- A value that is there and is no text. -/
def HasNoText (members : Members) (key : String) : Prop :=
  ∃ value, member? members key = some value ∧ value.string? = none

/-- A member that is there. -/
def Has (members : Members) (key : String) : Prop :=
  ∃ value, member? members key = some value

/-- The first of two members that are stripped one after the other is no text, or the second is
none and the first is not blank. -/
def StripsNoText (members : Members) (first second : String) : Prop :=
  HasNoText members first ∧ Has members second ∨ HasText members first ∧ HasNoText members second

/-- An infinity. -/
def IsInfinite (value : Value) : Prop :=
  ∃ negative, value = .float (.infinite negative)

/-- An integer beyond the doubles. -/
def IsTooLarge (value : Value) : Prop :=
  ∃ number, value = .int number ∧ Binary64.ofInt? number = none

section Escaping

variable {α β : Type} {body : Attempt α} {next : α → Attempt β} {value : Value}
  {members : Members} {key : String}

theorem escapes_bind : Escapes (body >>= next) ↔
    Escapes body ∨ ∃ value, body = .ok value ∧ Escapes (next value) := by
  cases body with
  | error error => simp [Escapes]
  | ok value => simp [Escapes]

theorem not_escapes (hraises : Raises isHandled body) : ¬ Escapes body :=
  raises_isHandled.mp hraises

theorem escapes_mapM {σ : Type} {reader : σ → Attempt α} {items : List σ} :
    Escapes (items.mapM reader) ↔ ∃ before entry after, items = before ++ entry :: after ∧
      (∀ earlier ∈ before, ∃ result, reader earlier = .ok result) ∧ Escapes (reader entry) := by
  constructor
  · rintro ⟨error, herror, hclass⟩
    obtain ⟨before, entry, after, hitems, hbefore, hentry⟩ := mapM_eq_error.mp herror
    exact ⟨before, entry, after, hitems, hbefore, error, hentry, hclass⟩
  · rintro ⟨before, entry, after, hitems, hbefore, error, hentry, hclass⟩
    exact ⟨error, mapM_eq_error.mpr ⟨before, entry, after, hitems, hbefore, hentry⟩, hclass⟩

theorem item_eq_ok : item members key = .ok value ↔ member? members key = some value := by
  unfold item orRaise
  cases member? members key with
  | none => simp
  | some found => simp

theorem escapes_stripped : Escapes (stripped value) ↔ value.string? = none := by
  cases value with
  | string text =>
      simp only [Escapes, stripped, Value.string?]
      split_ifs <;> simp [isHandled]
  | _ => simp [Escapes, stripped, Value.string?, isHandled]

theorem stripped_eq_ok : (∃ text, stripped value = .ok text) ↔
    ∃ text, value = .string text ∧ isBlankStr text = false := by
  cases value with
  | string text =>
      simp only [stripped, Value.string.injEq, exists_eq_left']
      split_ifs with hsolid
      · simp [hsolid]
      · simp [hsolid]
  | _ => simp [stripped]

theorem escapes_toInt : Escapes value.toInt ↔ IsInfinite value := by
  cases value with
  | float number => cases number <;> simp [Escapes, Value.toInt, IsInfinite, isHandled]
  | string codes =>
      simp only [Escapes, Value.toInt, IsInfinite, orRaise]
      cases Text.parseInt? codes <;> simp [isHandled]
  | _ => simp [Escapes, Value.toInt, IsInfinite, isHandled]

theorem escapes_toFloat : Escapes value.toFloat ↔ IsTooLarge value := by
  cases value with
  | int number =>
      simp only [Escapes, Value.toFloat, IsTooLarge, orRaise, Value.int.injEq, exists_eq_left']
      cases Binary64.ofInt? number <;> simp [isHandled]
  | string codes =>
      simp only [Escapes, Value.toFloat, IsTooLarge, orRaise]
      cases Binary64.parse? codes <;> simp [isHandled]
  | _ => simp [Escapes, Value.toFloat, IsTooLarge, isHandled]

theorem isInfinite_orZero : IsInfinite (orZero value) ↔ IsInfinite value := by
  unfold orZero
  split_ifs with htruthy
  · rfl
  · constructor
    · rintro ⟨negative, hzero⟩
      cases hzero
    · rintro ⟨negative, rfl⟩
      exact absurd rfl htruthy

end Escaping

section Writing

variable {printable : Printable}

mutual

/-- `repr` raises a `ValueError` at most. -/
theorem raises_repr (printable : Printable) :
    (value : Value) → Raises isHandled (value.repr printable)
  | .null => raises_ok _
  | .bool _ => raises_ok _
  | .int number => by
      intro error herror
      simp only [Value.repr, reprInt] at herror
      split_ifs at herror
      cases herror
      rfl
  | .float _ => raises_ok _
  | .string _ => raises_ok _
  | .array items => by
      intro error herror
      rw [Value.repr] at herror
      cases htexts : reprItems printable items with
      | error raised =>
          rw [htexts] at herror
          cases herror
          exact raises_reprItems printable items _ htexts
      | ok texts =>
          rw [htexts] at herror
          cases herror
  | .object members => by
      intro error herror
      rw [Value.repr] at herror
      cases htexts : reprMembers printable members with
      | error raised =>
          rw [htexts] at herror
          cases herror
          exact raises_reprMembers printable members _ htexts
      | ok texts =>
          rw [htexts] at herror
          cases herror

theorem raises_reprItems (printable : Printable) :
    (items : List Value) → Raises isHandled (reprItems printable items)
  | [] => raises_ok _
  | item :: rest => by
      rw [reprItems]
      exact (raises_repr printable item).bind fun text =>
        Raises.map (raises_reprItems printable rest)

theorem raises_reprMembers (printable : Printable) :
    (members : List (Str × Value)) → Raises isHandled (reprMembers printable members)
  | [] => raises_ok _
  | (key, value) :: rest => by
      rw [reprMembers]
      exact (raises_repr printable value).bind fun text =>
        Raises.map (raises_reprMembers printable rest)

end

theorem raises_str (value : Value) : Raises isHandled (value.str printable) := by
  cases value with
  | string codes => exact raises_ok codes
  | _ => exact raises_repr printable _

end Writing

section Stripping

variable {members : Members} {first second : String}

theorem hasText_iff {value : Value} {key : String} (hvalue : member? members key = some value) :
    HasText members key ↔ ∃ text, stripped value = .ok text := by
  rw [stripped_eq_ok, HasText, hvalue]
  simp only [Option.some.injEq]

theorem hasNoText_iff {value : Value} {key : String} (hvalue : member? members key = some value) :
    HasNoText members key ↔ Escapes (stripped value) := by
  rw [escapes_stripped, HasNoText, hvalue]
  simp only [Option.some.injEq, exists_eq_left']

/-- Two members that are stripped one after the other. -/
theorem escapes_stripped_bind {α : Type} {left right : Value}
    (hleft : member? members first = some left) (hright : member? members second = some right)
    (build : {text : Str // isBlankStr text = false} →
      {text : Str // isBlankStr text = false} → α) :
    Escapes (stripped left >>= fun one => stripped right >>= fun two => pure (build one two)) ↔
      StripsNoText members first second := by
  have hlast : ∀ one, ¬ ∃ two, stripped right = .ok two ∧
      Escapes (pure (build one two) : Attempt α) := by
    rintro one ⟨two, _, error, herror, _⟩
    cases herror
  simp only [escapes_bind, hlast, or_false, StripsNoText, Has, hright, Option.some.injEq,
    exists_eq', and_true, hasNoText_iff hleft, hasNoText_iff hright, hasText_iff hleft,
    exists_and_right]

theorem exists_of_stripsNoText (hstrips : StripsNoText members first second) :
    ∃ left right, member? members first = some left ∧ member? members second = some right := by
  rcases hstrips with ⟨⟨left, hleft, _⟩, ⟨right, hright⟩⟩ | ⟨⟨left, hleft, _⟩, ⟨right, hright, _⟩⟩
  · exact ⟨left, right, hleft, hright⟩
  · exact ⟨_, right, hleft, hright⟩

end Stripping

/-- An event of the timeline whose type or time is no text when it is stripped. -/
def UnreadableEvent (members : Members) : Prop :=
  StripsNoText members "event_type" "occurred_at"

/-- An event with a type and a time. -/
def ReadableEvent (members : Members) : Prop :=
  HasText members "event_type" ∧ HasText members "occurred_at"

/-- A timeline in which an unreadable event comes before every other fault. -/
def TimelineEscapes (payload : Value) : Prop :=
  ∃ timeline items limit, objectAt? payload "timeline" = some timeline ∧
    member? timeline "items" = some (.array items) ∧
    member? timeline "limit" = some (.int limit) ∧
    ∃ before event after, items.filterMap Value.object? = before ++ event :: after ∧
      (∀ earlier ∈ before, ReadableEvent earlier) ∧ UnreadableEvent event

section Timeline

variable {members : Members}

theorem escapes_auditTimelineEvent :
    Escapes (auditTimelineEvent members) ↔ UnreadableEvent members := by
  unfold auditTimelineEvent UnreadableEvent
  simp only [escapes_bind, not_escapes raises_item, false_or, item_eq_ok]
  constructor
  · rintro ⟨eventType, heventType, occurredAt, hoccurredAt, hescapes⟩
    rw [← escapes_stripped_bind heventType hoccurredAt fun one two =>
      (⟨one.1, two.1, one.2, two.2⟩ : PlatformAuditTimelineEvent)]
    simpa only [escapes_bind] using hescapes
  · intro hstrips
    obtain ⟨eventType, occurredAt, heventType, hoccurredAt⟩ := exists_of_stripsNoText hstrips
    rw [← escapes_stripped_bind heventType hoccurredAt fun one two =>
      (⟨one.1, two.1, one.2, two.2⟩ : PlatformAuditTimelineEvent)] at hstrips
    exact ⟨eventType, heventType, occurredAt, hoccurredAt, by
      simpa only [escapes_bind] using hstrips⟩

theorem auditTimelineEvent_ok :
    (∃ event, auditTimelineEvent members = .ok event) ↔ ReadableEvent members := by
  unfold auditTimelineEvent ReadableEvent
  simp only [bind_eq_ok, item_eq_ok]
  constructor
  · rintro ⟨event, eventType, heventType, occurredAt, hoccurredAt, one, hone, two, htwo, _⟩
    exact ⟨(hasText_iff heventType).mpr ⟨one, hone⟩, (hasText_iff hoccurredAt).mpr ⟨two, htwo⟩⟩
  · rintro ⟨heventType, hoccurredAt⟩
    obtain ⟨eventType, hmember, _⟩ := id heventType
    obtain ⟨occurredAt, hother, _⟩ := id hoccurredAt
    obtain ⟨one, hone⟩ := (hasText_iff hmember).mp heventType
    obtain ⟨two, htwo⟩ := (hasText_iff hother).mp hoccurredAt
    exact ⟨_, _, hmember, _, hother, one, hone, two, htwo, rfl⟩

theorem failsClosed_auditTimeline (payload : Value) :
    FailsClosed (parseDiscordAuditTimeline payload) ↔ ¬ TimelineEscapes payload := by
  have hlast : ∀ (events : List PlatformAuditTimelineEvent) (items : List Value) (limit : ℤ),
      ¬ Escapes (require (events.length = items.length) >>= fun _ =>
        constructed (Validated.make PlatformAuditTimelineFields.postInit
          ⟨.discord, events, limit⟩)) := fun events items limit =>
    not_escapes ((raises_require rfl).bind fun _ => raises_constructed rfl)
  rw [parseDiscordAuditTimeline, failsClosed_parser_iff]
  simp only [raises_isHandled, escapes_bind, not_escapes raises_item, not_escapes raises_value,
    false_or, item_eq_ok, hlast, and_false, exists_false, or_false, orRaise_eq_ok,
    Value.array?_eq_some, Value.int?_eq_some, escapes_mapM, escapes_auditTimelineEvent,
    auditTimelineEvent_ok]
  rw [← not_exists_not]
  refine not_congr ?_
  simp only [TimelineEscapes, Classical.not_imp, not_not]
  constructor
  · rintro ⟨timeline, htimeline, _, hitems, _, hlimit, items, rfl, limit, rfl, hevent⟩
    exact ⟨timeline, items, limit, htimeline, hitems, hlimit, hevent⟩
  · rintro ⟨timeline, items, limit, htimeline, hitems, hlimit, hevent⟩
    exact ⟨timeline, htimeline, _, hitems, _, hlimit, items, rfl, limit, rfl, hevent⟩

end Timeline

/-- A channel whose identifier or name is no text when it is stripped. -/
def UnreadableChannel (members : Members) : Prop :=
  StripsNoText members "id" "name" ∧
    ∃ kind, member? members "kind" = some kind ∧ ∃ found, enumValue ChannelKind kind = .ok found

/-- A channel with an identifier, a name and a kind. -/
def ReadableChannel (members : Members) : Prop :=
  (HasText members "id" ∧ HasText members "name") ∧
    ∃ kind, member? members "kind" = some kind ∧ ∃ found, enumValue ChannelKind kind = .ok found

/-- A catalog in which an unreadable channel comes before every other fault. -/
def CatalogEscapes (payload : Value) : Prop :=
  ∃ items, arrayAt? payload "items" = some items ∧
    ∃ before channel after, items.filterMap Value.object? = before ++ channel :: after ∧
      (∀ earlier ∈ before, ReadableChannel earlier) ∧ UnreadableChannel channel

section Catalog

variable {members : Members}

theorem escapes_platformChannel :
    Escapes (platformChannel members) ↔ UnreadableChannel members := by
  have hkind : ∀ kind : Value, ¬ Escapes (enumValue ChannelKind kind) := fun kind =>
    not_escapes (raises_enumValue rfl)
  unfold platformChannel UnreadableChannel
  simp only [escapes_bind, not_escapes raises_item, false_or, item_eq_ok, hkind]
  constructor
  · rintro ⟨identifier, hid, name, hname, kind, hkind, found, hfound, hescapes⟩
    refine ⟨?_, kind, hkind, found, hfound⟩
    rw [← escapes_stripped_bind hid hname fun one two =>
      (⟨one.1, two.1, found, one.2, two.2⟩ : PlatformChannel)]
    simpa only [escapes_bind] using hescapes
  · rintro ⟨hstrips, kind, hkind, found, hfound⟩
    obtain ⟨identifier, name, hid, hname⟩ := exists_of_stripsNoText hstrips
    rw [← escapes_stripped_bind hid hname fun one two =>
      (⟨one.1, two.1, found, one.2, two.2⟩ : PlatformChannel)] at hstrips
    exact ⟨identifier, hid, name, hname, kind, hkind, found, hfound, by
      simpa only [escapes_bind] using hstrips⟩

theorem platformChannel_ok :
    (∃ channel, platformChannel members = .ok channel) ↔ ReadableChannel members := by
  unfold platformChannel ReadableChannel
  simp only [bind_eq_ok, item_eq_ok]
  constructor
  · rintro ⟨channel, identifier, hid, name, hname, kind, hkind, found, hfound, one, hone, two,
      htwo, _⟩
    exact ⟨⟨(hasText_iff hid).mpr ⟨one, hone⟩, (hasText_iff hname).mpr ⟨two, htwo⟩⟩, kind, hkind,
      found, hfound⟩
  · rintro ⟨⟨hidText, hnameText⟩, kind, hkind, found, hfound⟩
    obtain ⟨identifier, hid, _⟩ := id hidText
    obtain ⟨name, hname, _⟩ := id hnameText
    obtain ⟨one, hone⟩ := (hasText_iff hid).mp hidText
    obtain ⟨two, htwo⟩ := (hasText_iff hname).mp hnameText
    exact ⟨_, _, hid, _, hname, kind, hkind, found, hfound, one, hone, two, htwo, rfl⟩

theorem failsClosed_channelCatalog (payload : Value) :
    FailsClosed (parseDiscordChannelCatalog payload) ↔ ¬ CatalogEscapes payload := by
  have hlast : ∀ (channels : List PlatformChannel) (items : List Value),
      ¬ Escapes (require (channels.length = items.length) >>= fun _ =>
        (pure channels : Attempt (List PlatformChannel))) := fun channels items =>
    not_escapes ((raises_require rfl).bind fun _ => raises_pure channels)
  rw [parseDiscordChannelCatalog, failsClosed_parser_iff]
  simp only [raises_isHandled, escapes_bind, hlast, and_false, exists_false, or_false,
    escapes_mapM, escapes_platformChannel, platformChannel_ok]
  rw [← not_exists_not]
  refine not_congr ?_
  simp only [CatalogEscapes, Classical.not_imp, not_not]

end Catalog

end MuxivoConsole.Control
