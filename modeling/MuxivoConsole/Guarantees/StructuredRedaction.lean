/-
Structured redaction does not let anything through that stands under a sensitive key: values that
agree everywhere else are redacted to equal ones, and records are written as equal lines.
-/
import MuxivoConsole.Infrastructure.StructuredLogging

namespace MuxivoConsole

open Text Mapping

section Agreement

variable {κ σ : Type}

mutual

/-- Values of one shape whose strings correspond, outside of what sensitive keys hold. -/
inductive Agrees (isSensitive : κ → Bool) (same : Str → Str → Prop) :
    LogValue κ σ → LogValue κ σ → Prop where
  | mapping {entries others : List (κ × LogValue κ σ)} :
      AgreesEntries isSensitive same entries others →
        Agrees isSensitive same (.mapping entries) (.mapping others)
  | tuple {items others : List (LogValue κ σ)} : AgreesItems isSensitive same items others →
      Agrees isSensitive same (.tuple items) (.tuple others)
  | list {items others : List (LogValue κ σ)} : AgreesItems isSensitive same items others →
      Agrees isSensitive same (.list items) (.list others)
  | string {codes others : Str} : same codes others →
      Agrees isSensitive same (.string codes) (.string others)
  | scalar (value : σ) : Agrees isSensitive same (.scalar value) (.scalar value)

/-- The same keys, with values that agree under those that are not sensitive. -/
inductive AgreesEntries (isSensitive : κ → Bool) (same : Str → Str → Prop) :
    List (κ × LogValue κ σ) → List (κ × LogValue κ σ) → Prop where
  | nil : AgreesEntries isSensitive same [] []
  | sensitive {key : κ} {item other : LogValue κ σ} {rest others : List (κ × LogValue κ σ)} :
      isSensitive key = true → AgreesEntries isSensitive same rest others →
        AgreesEntries isSensitive same ((key, item) :: rest) ((key, other) :: others)
  | plain {key : κ} {item other : LogValue κ σ} {rest others : List (κ × LogValue κ σ)} :
      Agrees isSensitive same item other → AgreesEntries isSensitive same rest others →
        AgreesEntries isSensitive same ((key, item) :: rest) ((key, other) :: others)

/-- As many items, each of which agrees. -/
inductive AgreesItems (isSensitive : κ → Bool) (same : Str → Str → Prop) :
    List (LogValue κ σ) → List (LogValue κ σ) → Prop where
  | nil : AgreesItems isSensitive same [] []
  | cons {item other : LogValue κ σ} {rest others : List (LogValue κ σ)} :
      Agrees isSensitive same item other → AgreesItems isSensitive same rest others →
        AgreesItems isSensitive same (item :: rest) (other :: others)

end

variable {isWord : Nat → Bool} {isSensitive : κ → Bool}

mutual

/-- Redaction gives equal results on values that differ under sensitive keys only. -/
theorem Agrees.redactSecret_eq {value other : LogValue κ σ}
    (hagrees : Agrees isSensitive Eq value other) :
    redactSecret isWord isSensitive value = redactSecret isWord isSensitive other := by
  cases hagrees with
  | mapping hentries => rw [redactSecret, redactSecret, hentries.redactEntries_eq]
  | tuple hitems => rw [redactSecret, redactSecret, hitems.redactItems_eq]
  | list hitems => rw [redactSecret, redactSecret, hitems.redactItems_eq]
  | string hsame => rw [hsame]
  | scalar value => rfl

theorem AgreesEntries.redactEntries_eq {entries others : List (κ × LogValue κ σ)}
    (hagrees : AgreesEntries isSensitive Eq entries others) :
    redactEntries isWord isSensitive entries = redactEntries isWord isSensitive others := by
  cases hagrees with
  | nil => rfl
  | sensitive hkey hrest =>
      rw [redactEntries, redactEntries, if_pos hkey, if_pos hkey, hrest.redactEntries_eq]
  | plain hitem hrest =>
      rw [redactEntries, redactEntries, hitem.redactSecret_eq, hrest.redactEntries_eq]

theorem AgreesItems.redactItems_eq {items others : List (LogValue κ σ)}
    (hagrees : AgreesItems isSensitive Eq items others) :
    redactItems isWord isSensitive items = redactItems isWord isSensitive others := by
  cases hagrees with
  | nil => rfl
  | cons hitem hrest =>
      rw [redactItems, redactItems, hitem.redactSecret_eq, hrest.redactItems_eq]

end

mutual

/-- Redaction keeps the shape, and redacts each string outside of sensitive entries. -/
theorem agrees_redactSecret (value : LogValue κ σ) :
    Agrees isSensitive (fun codes redacted => redacted = redactSecretText isWord codes) value
      (redactSecret isWord isSensitive value) := by
  cases value with
  | mapping entries =>
      rw [redactSecret]
      exact .mapping (agreesEntries_redactEntries entries)
  | tuple items =>
      rw [redactSecret]
      exact .tuple (agreesItems_redactItems items)
  | list items =>
      rw [redactSecret]
      exact .list (agreesItems_redactItems items)
  | string codes =>
      rw [redactSecret]
      exact .string rfl
  | scalar value =>
      rw [redactSecret]
      exact .scalar value

theorem agreesEntries_redactEntries (entries : List (κ × LogValue κ σ)) :
    AgreesEntries isSensitive (fun codes redacted => redacted = redactSecretText isWord codes)
      entries (redactEntries isWord isSensitive entries) := by
  cases entries with
  | nil => exact .nil
  | cons entry rest =>
      obtain ⟨key, item⟩ := entry
      rw [redactEntries]
      by_cases hkey : isSensitive key = true
      · exact .sensitive hkey (agreesEntries_redactEntries rest)
      · rw [if_neg hkey]
        exact .plain (agrees_redactSecret item) (agreesEntries_redactEntries rest)

theorem agreesItems_redactItems (items : List (LogValue κ σ)) :
    AgreesItems isSensitive (fun codes redacted => redacted = redactSecretText isWord codes)
      items (redactItems isWord isSensitive items) := by
  cases items with
  | nil => exact .nil
  | cons item rest =>
      rw [redactItems]
      exact .cons (agrees_redactSecret item) (agreesItems_redactItems rest)

end

end Agreement

section Records

variable {τ σ ε : Type} {library : LoggingLibrary τ σ ε} {record other : LogRecord τ σ ε}
  {payload payload' fields fields' : List (Str × LogData τ σ)}

/-- Records that differ only in what sensitive keys of the extras hold. -/
structure LogRecord.SameOutside (library : LoggingLibrary τ σ ε) (record other : LogRecord τ σ ε) :
    Prop where
  name : record.name = other.name
  levelname : record.levelname = other.levelname
  created : record.created = other.created
  process : record.process = other.process
  msg : record.msg = other.msg
  args : record.args = other.args
  excInfo : record.excInfo = other.excInfo
  stackInfo : record.stackInfo = other.stackInfo
  extras : List.Forall₂ (fun field field' => field.1 = field'.1 ∧
    (library.isSensitive (.text field.1) = true ∨
      Agrees library.isSensitive Eq field.2 field'.2)) record.extras other.extras

/-- Fields that the redaction of a payload makes equal. -/
def SameRedacted (library : LoggingLibrary τ σ ε) (field field' : Str × LogData τ σ) : Prop :=
  field.1 = field'.1 ∧
    (library.isSensitive (.text field.1) = true ∨ library.redact field.2 = library.redact field'.2)

theorem SameRedacted.refl (field : Str × LogData τ σ) : SameRedacted library field field :=
  ⟨rfl, Or.inr rfl⟩

theorem redactAttribute_eq (key : Str) (value : LogData τ σ) :
    library.redactAttribute key value =
      if library.isSensitive (.text key) then .string redactedSecret else library.redact value := by
  simp only [LoggingLibrary.redactAttribute, LoggingLibrary.redact, redactSecret, redactEntries]

/-- The filter leaves equal attributes. -/
theorem redactedAttributes_eq (hsame : record.SameOutside library other) :
    (record.extras.map fun (key, value) => (key, library.redactAttribute key value)) =
      other.extras.map fun (key, value) => (key, library.redactAttribute key value) := by
  have hfields := hsame.extras
  generalize record.extras = extras, other.extras = extras' at hfields
  induction hfields with
  | nil => rfl
  | cons hfield _ ih =>
      rename_i field field' rest rest' _
      obtain ⟨key, value⟩ := field
      obtain ⟨key', value'⟩ := field'
      obtain ⟨rfl, hvalues⟩ := hfield
      have hattribute : library.redactAttribute key value =
          library.redactAttribute key value' := by
        rw [redactAttribute_eq, redactAttribute_eq]
        rcases hvalues with hkey | hagrees
        · rw [if_pos hkey, if_pos hkey]
        · rw [LoggingLibrary.redact, LoggingLibrary.redact, hagrees.redactSecret_eq]
      rw [List.map_cons, List.map_cons, ih]
      simp only [hattribute]

/-- The filter leaves equal records. -/
theorem filter_eq (hsame : record.SameOutside library other) :
    library.filter record = library.filter other := by
  rw [LoggingLibrary.filter, LoggingLibrary.filter, redactedAttributes_eq hsame]
  simp only [hsame.name, hsame.levelname, hsame.created, hsame.process, hsame.msg, hsame.args,
    hsame.excInfo, hsame.stackInfo]

/-- Setting a field keeps payloads alike. -/
theorem sameRedacted_setItem {key : Str} {value value' : LogData τ σ}
    (hfield : SameRedacted library (key, value) (key, value'))
    (hsame : List.Forall₂ (SameRedacted library) payload payload') :
    List.Forall₂ (SameRedacted library) (Dict.setItem key value payload)
      (Dict.setItem key value' payload') := by
  induction hsame with
  | nil => exact .cons hfield .nil
  | cons hhead htail ih =>
      rw [Dict.setItem, Dict.setItem, hhead.1]
      split_ifs with hkey
      · exact .cons hfield htail
      · exact .cons hhead ih

theorem sameRedacted_updated (hfields : List.Forall₂ (SameRedacted library) fields fields')
    (hsame : List.Forall₂ (SameRedacted library) payload payload') :
    List.Forall₂ (SameRedacted library) (updated payload fields) (updated payload' fields') := by
  induction hfields generalizing payload payload' with
  | nil => exact hsame
  | cons hhead _ ih =>
      rename_i field field' rest rest' _
      obtain ⟨key, value⟩ := field
      obtain ⟨key', value'⟩ := field'
      obtain ⟨rfl, hvalues⟩ := hhead
      exact ih (sameRedacted_setItem ⟨rfl, hvalues⟩ hsame)

theorem sameRedacted_self (fields : List (Str × LogData τ σ)) :
    List.Forall₂ (SameRedacted library) fields fields :=
  List.forall₂_same.mpr fun field _ => SameRedacted.refl field

/-- The extras of the payload are alike. -/
theorem sameRedacted_structuredExtras (hsame : record.SameOutside library other) :
    List.Forall₂ (SameRedacted library) (library.structuredExtras record)
      (library.structuredExtras other) := by
  unfold LoggingLibrary.structuredExtras
  have hfields := hsame.extras
  generalize record.extras = extras, other.extras = extras' at hfields
  induction hfields with
  | nil => exact .nil
  | cons hfield _ ih =>
      rename_i field field' rest rest' _
      obtain ⟨key, value⟩ := field
      obtain ⟨key', value'⟩ := field'
      obtain ⟨rfl, hvalues⟩ := hfield
      by_cases hkey : key ∉ formatterOnlyKeys
      · rw [List.filter_cons_of_pos (by simpa using hkey),
          List.filter_cons_of_pos (by simpa using hkey)]
        refine .cons ⟨rfl, hvalues.imp id fun hagrees => ?_⟩ ih
        simp only [LoggingLibrary.redact, hagrees.redactSecret_eq]
      · rwa [List.filter_cons_of_neg (by simpa using hkey),
          List.filter_cons_of_neg (by simpa using hkey)]

/-- Payloads that are alike are written as equal lines. -/
theorem redact_payload_eq (hsame : List.Forall₂ (SameRedacted library) payload payload') :
    library.redact (.mapping (payload.map fun (key, value) => (LogKey.text key, value))) =
      library.redact (.mapping (payload'.map fun (key, value) => (LogKey.text key, value))) := by
  unfold LoggingLibrary.redact
  rw [redactSecret, redactSecret]
  congr 1
  induction hsame with
  | nil => rfl
  | cons hfield _ ih =>
      rename_i field field' rest rest' _
      obtain ⟨key, value⟩ := field
      obtain ⟨key', value'⟩ := field'
      obtain ⟨rfl, hvalues⟩ := hfield
      rw [List.map_cons, List.map_cons, redactEntries, redactEntries, ih]
      rcases hvalues with hkey | hredacted
      · rw [if_pos hkey, if_pos hkey]
      · unfold LoggingLibrary.redact at hredacted
        rw [hredacted]

/-- The message is set on both records. -/
theorem LogRecord.SameOutside.setMessage (hsame : record.SameOutside library other)
    (message : Str) :
    (record.setMessage message).SameOutside library (other.setMessage message) := by
  refine ⟨hsame.name, hsame.levelname, hsame.created, hsame.process, hsame.msg, hsame.args,
    hsame.excInfo, hsame.stackInfo, ?_⟩
  unfold LogRecord.setMessage
  have hfields := hsame.extras
  generalize record.extras = extras, other.extras = extras' at hfields
  induction hfields with
  | nil => exact .cons ⟨rfl, Or.inr (.string rfl)⟩ .nil
  | cons hhead htail ih =>
      rw [Dict.setItem, Dict.setItem, hhead.1]
      split_ifs with hkey
      · exact .cons ⟨rfl, Or.inr (.string rfl)⟩ htail
      · exact .cons hhead ih

theorem LogRecord.SameOutside.safeMessage (hsame : record.SameOutside library other) :
    library.safeMessage record = library.safeMessage other := by
  rw [LoggingLibrary.safeMessage, LoggingLibrary.safeMessage, hsame.msg, hsame.args]

/-- The exception does not come from the extras. -/
theorem sameRedacted_withException (hsame : record.SameOutside library other)
    (hpayload : List.Forall₂ (SameRedacted library) payload payload') :
    Option.Rel (List.Forall₂ (SameRedacted library)) (library.withException record payload)
      (library.withException other payload') := by
  rw [LoggingLibrary.withException, LoggingLibrary.withException, hsame.excInfo]
  cases other.excInfo with
  | none => exact .some hpayload
  | some exception =>
      cases hitem : library.exceptionPayload exception with
      | none =>
          simp only [hitem, Option.map_none]
          exact .none
      | some item =>
          simp only [hitem, Option.map_some]
          exact .some (sameRedacted_setItem (SameRedacted.refl _) hpayload)

/-- The stack does not come from the extras. -/
theorem sameRedacted_withStack (hsame : record.SameOutside library other)
    (hpayload : List.Forall₂ (SameRedacted library) payload payload') :
    List.Forall₂ (SameRedacted library) (library.withStack record payload)
      (library.withStack other payload') := by
  unfold LoggingLibrary.withStack
  rw [hsame.stackInfo]
  match other.stackInfo with
  | none => exact hpayload
  | some [] => exact hpayload
  | some (code :: stack) => exact sameRedacted_setItem (SameRedacted.refl _) hpayload

/-- The fields of access records do not come from the extras. -/
theorem sameRedacted_accessPayload (hsame : record.SameOutside library other)
    (hpayload : List.Forall₂ (SameRedacted library) payload payload') :
    Option.Rel (List.Forall₂ (SameRedacted library)) (library.accessPayload record payload)
      (library.accessPayload other payload') := by
  have hfields : library.accessFields record = library.accessFields other := by
    rw [LoggingLibrary.accessFields, LoggingLibrary.accessFields, hsame.args]
  rw [LoggingLibrary.accessPayload, LoggingLibrary.accessPayload, hsame.name, hfields]
  split_ifs with haccess
  · cases library.accessFields other with
    | none => exact .none
    | some fields =>
        exact .some (sameRedacted_updated (sameRedacted_self _)
          (sameRedacted_updated (sameRedacted_self _) hpayload))
  · exact .some hpayload

/-- What is written behind the fields of access records is equal. -/
theorem written_eq (hsame : record.SameOutside library other)
    {access access' : Option (List (Str × LogData τ σ))}
    (haccess : Option.Rel (List.Forall₂ (SameRedacted library)) access access') :
    ((access.bind (library.withException record)).bind fun payload => library.dumps
        (library.redact (.mapping
          ((library.withStack record payload).map fun (key, value) => (.text key, value))))) =
      (access'.bind (library.withException other)).bind fun payload => library.dumps
        (library.redact (.mapping
          ((library.withStack other payload).map fun (key, value) => (.text key, value)))) := by
  cases haccess with
  | none => rfl
  | some hfields =>
      have hexception := sameRedacted_withException hsame hfields
      rw [Option.bind_some, Option.bind_some]
      generalize library.withException record _ = payload at hexception ⊢
      generalize library.withException other _ = payload' at hexception ⊢
      cases hexception with
      | none => rfl
      | some hlast =>
          have hstack := sameRedacted_withStack hsame hlast
          rw [Option.bind_some, Option.bind_some, redact_payload_eq hstack]

/-- The formatter writes equal lines, and leaves records that differ only where they did. -/
theorem format_eq (hsame : record.SameOutside library other) :
    (library.format record).1 = (library.format other).1 ∧
      (library.format record).2.SameOutside library (library.format other).2 := by
  have hmessage := hsame.setMessage (library.safeMessage other)
  have hextras := sameRedacted_structuredExtras hmessage
  unfold LoggingLibrary.format
  simp only [hsame.safeMessage]
  generalize record.setMessage (library.safeMessage other) = named at hmessage hextras ⊢
  generalize other.setMessage (library.safeMessage other) = named' at hmessage hextras ⊢
  simp only [hmessage.created]
  cases library.timestamp named'.created with
  | none => exact ⟨rfl, hmessage⟩
  | some timestamp =>
      have henvelope : named.envelope (library.safeMessage other) timestamp =
          (named'.envelope (library.safeMessage other) timestamp : List (Str × LogData τ σ)) := by
        rw [LogRecord.envelope, LogRecord.envelope, hmessage.name, hmessage.levelname,
          hmessage.process]
      have hpayload := sameRedacted_updated hextras
        (@sameRedacted_self _ _ _ library
          (named'.envelope (library.safeMessage other) timestamp))
      have hnamed : (if named.name = codesOf "uvicorn.access" then
          named.setMessage (codesOf "http.access") else named).SameOutside library
            (if named'.name = codesOf "uvicorn.access" then
              named'.setMessage (codesOf "http.access") else named') := by
        rw [hmessage.name]
        split_ifs with haccess
        · exact hmessage.setMessage _
        · exact hmessage
      simp only [henvelope]
      refine ⟨?_, hnamed⟩
      exact written_eq hnamed (sameRedacted_accessPayload hnamed hpayload)

/-- On their way, records that differ under sensitive keys only are written as equal lines. -/
theorem emitted_eq (steps : List LoggingStep) (hsame : record.SameOutside library other) :
    library.emitted steps record = library.emitted steps other := by
  induction steps generalizing record other with
  | nil => rfl
  | cons step steps ih =>
      cases step with
      | filter =>
          simp only [LoggingLibrary.emitted]
          rw [filter_eq hsame]
      | format =>
          obtain ⟨hline, hleft⟩ := format_eq hsame
          simp only [LoggingLibrary.emitted]
          rw [hline, ih hleft]

end Records

/-- Redaction does not depend on what sensitive keys hold, it keeps the shape outside of them, and
neither the filter nor the formatter lets anything of it through. -/
theorem structured_redaction_is_noninterfering {τ σ ε : Type} (library : LoggingLibrary τ σ ε) :
    (∀ value other : LogData τ σ, Agrees library.isSensitive Eq value other →
        library.redact value = library.redact other) ∧
      (∀ value : LogData τ σ, Agrees library.isSensitive
        (fun codes redacted => redacted = library.redactText codes) value (library.redact value)) ∧
        ∀ record other : LogRecord τ σ ε, record.SameOutside library other →
          library.filter record = library.filter other ∧
            ∀ steps, library.emitted steps record = library.emitted steps other :=
  ⟨fun _ _ hagrees => hagrees.redactSecret_eq, agrees_redactSecret,
    fun _ _ hsame => ⟨filter_eq hsame, fun steps => emitted_eq steps hsame⟩⟩

end MuxivoConsole
