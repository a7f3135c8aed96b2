/-
The filter that redacts log records, and the formatter that writes them as redacted objects of
JSON.
-/
import MuxivoConsole.Domain.Redaction
import MuxivoConsole.Mapping.Dict

namespace MuxivoConsole

open Text Mapping

/-- A key of a mapping: a string, or any other object. -/
inductive LogKey (τ : Type) where
  | text (codes : Str)
  | other (object : τ)

/-- A value in log data. -/
abbrev LogData (τ σ : Type) := LogValue (LogKey τ) σ

/-- `logging.LogRecord`; the extras are the attributes that a new record does not have. -/
structure LogRecord (τ σ ε : Type) where
  name : Str
  levelname : Str
  created : σ
  process : σ
  msg : LogData τ σ
  args : LogData τ σ
  excInfo : Option ε
  stackInfo : Option Str
  extras : List (Str × LogData τ σ)

/-- What the language and its library make of the values: `str.lower`, `str(key)`, `str(value)`, the
truth of a scalar, the rendering of a message, of a time and of an exception, the path of a URL, and
`json.dumps`. Where a call raises an error there is no result. -/
structure LoggingLibrary (τ σ ε : Type) where
  isWord : Nat → Bool
  lower : Str → Str
  keyText : τ → Str
  valueText : LogData τ σ → Option Str
  truthy : σ → Bool
  rendered : LogData τ σ → LogData τ σ → Except Str Str
  timestamp : σ → Option Str
  urlPath : Str → Option Str
  exceptionName : ε → Option Str
  exceptionText : ε → Option Str
  traceback : ε → Option Str
  dumps : LogData τ σ → Option Str

/-- `_FORMATTER_ONLY_KEYS` -/
def formatterOnlyKeys : List Str :=
  ["asctime", "event", "exception", "level", "logger", "message", "process_id", "stack",
    "timestamp"].map codesOf

section Logging

variable {τ σ ε : Type} (library : LoggingLibrary τ σ ε)

/-- `str(key)` -/
def LoggingLibrary.keyCodes : LogKey τ → Str
  | .text codes => codes
  | .other object => library.keyText object

/-- `is_sensitive_key` -/
def LoggingLibrary.isSensitive (key : LogKey τ) : Bool :=
  isSensitiveKey library.lower (library.keyCodes key)

/-- `redact_secret` -/
def LoggingLibrary.redact (value : LogData τ σ) : LogData τ σ :=
  redactSecret library.isWord library.isSensitive value

/-- `redact_secret_text` -/
def LoggingLibrary.redactText (text : Str) : Str :=
  redactSecretText library.isWord text

/-- `bool(value)` -/
def LoggingLibrary.isTrue : LogData τ σ → Bool
  | .mapping entries => !entries.isEmpty
  | .tuple items => !items.isEmpty
  | .list items => !items.isEmpty
  | .string codes => !codes.isEmpty
  | .scalar value => library.truthy value

/-- `redact_secret({key: value})[key]` -/
def LoggingLibrary.redactAttribute (key : Str) (value : LogData τ σ) : LogData τ σ :=
  match library.redact (.mapping [(.text key, value)]) with
  | .mapping [(_, redacted)] => redacted
  | other => other

/-- `SecretRedactionFilter.filter`; all records pass. -/
def LoggingLibrary.filter (record : LogRecord τ σ ε) : LogRecord τ σ ε :=
  { record with
    msg := library.redact record.msg
    args := if library.isTrue record.args then library.redact record.args else record.args
    extras := record.extras.map fun (key, value) => (key, library.redactAttribute key value) }

/-- `setattr(record, "message", message)` -/
def LogRecord.setMessage (record : LogRecord τ σ ε) (message : Str) : LogRecord τ σ ε :=
  { record with extras := Dict.setItem (codesOf "message") (.string message) record.extras }

/-- `StructuredJsonFormatter._safe_message` -/
def LoggingLibrary.safeMessage (record : LogRecord τ σ ε) : Str :=
  match library.rendered record.msg record.args with
  | .ok message => library.redactText message
  | .error name => codesOf "[unrenderable log message: " ++ name ++ codesOf "]"

/-- `StructuredJsonFormatter._structured_extras` -/
def LoggingLibrary.structuredExtras (record : LogRecord τ σ ε) : List (Str × LogData τ σ) :=
  (record.extras.filter fun (key, _) => key ∉ formatterOnlyKeys).map fun (key, value) =>
    (key, library.redact value)

/-- `payload.update(fields)` -/
def updated (payload fields : List (Str × LogData τ σ)) : List (Str × LogData τ σ) :=
  fields.foldl (fun payload field => Dict.setItem field.1 field.2 payload) payload

/-- `_access_fields` -/
def LoggingLibrary.accessFields (record : LogRecord τ σ ε) : Option (List (Str × LogData τ σ)) :=
  match record.args with
  | .tuple (_ :: method :: fullPath :: httpVersion :: statusCode :: _) => do
      let fullPath ← library.valueText fullPath
      let path ← library.urlPath fullPath
      let parsedPath := if path = [] then codesOf "/" else path
      let method ← library.valueText method
      let httpVersion ← library.valueText httpVersion
      pure [(codesOf "method", .string (library.redactText method)),
        (codesOf "path", .string (library.redactText parsedPath)),
        (codesOf "http_version", .string (library.redactText httpVersion)),
        (codesOf "status_code", statusCode)]
  | _ => some []

/-- `_exception_payload` -/
def LoggingLibrary.exceptionPayload (exception : ε) : Option (LogData τ σ) := do
  let traceback ← library.traceback exception
  let name ← library.exceptionName exception
  let text ← library.exceptionText exception
  pure (.mapping [(.text (codesOf "type"), .string name),
    (.text (codesOf "message"), .string (library.redactText text)),
    (.text (codesOf "traceback"), .string (library.redactText traceback))])

/-- The envelope of an event. -/
def LogRecord.envelope (record : LogRecord τ σ ε) (message timestamp : Str) :
    List (Str × LogData τ σ) :=
  [(codesOf "timestamp", .string timestamp), (codesOf "level", .string record.levelname),
    (codesOf "logger", .string record.name), (codesOf "event", .string message),
    (codesOf "message", .string message), (codesOf "process_id", .scalar record.process)]

/-- The fields of access records, behind the event and the message. -/
def LoggingLibrary.accessPayload (record : LogRecord τ σ ε) (payload : List (Str × LogData τ σ)) :
    Option (List (Str × LogData τ σ)) :=
  if record.name = codesOf "uvicorn.access" then
    (library.accessFields record).map fun fields =>
      updated (updated payload [(codesOf "event", .string (codesOf "http.access")),
        (codesOf "message", .string (codesOf "http.access"))]) fields
  else some payload

/-- The exception of an event. -/
def LoggingLibrary.withException (record : LogRecord τ σ ε) (payload : List (Str × LogData τ σ)) :
    Option (List (Str × LogData τ σ)) :=
  match record.excInfo with
  | some exception => (library.exceptionPayload exception).map fun item =>
      Dict.setItem (codesOf "exception") item payload
  | none => some payload

/-- The stack of an event. -/
def LoggingLibrary.withStack (record : LogRecord τ σ ε) (payload : List (Str × LogData τ σ)) :
    List (Str × LogData τ σ) :=
  match record.stackInfo with
  | some (code :: stack) =>
      Dict.setItem (codesOf "stack") (.string (library.redactText (code :: stack))) payload
  | _ => payload

/-- `StructuredJsonFormatter.format`, with the record as it leaves it -/
def LoggingLibrary.format (record : LogRecord τ σ ε) : Option Str × LogRecord τ σ ε :=
  let message := library.safeMessage record
  let record := record.setMessage message
  match library.timestamp record.created with
  | none => (none, record)
  | some timestamp =>
      let payload := updated (record.envelope message timestamp)
        (library.structuredExtras record)
      let record := if record.name = codesOf "uvicorn.access" then
        record.setMessage (codesOf "http.access") else record
      let payload := (library.accessPayload record payload).bind (library.withException record)
      (payload.bind fun payload => library.dumps (library.redact (.mapping
        ((library.withStack record payload).map fun (key, value) => (.text key, value)))), record)

/-- What happens to a record on its way: a logger or a handler filters it, or a handler formats
it. -/
inductive LoggingStep where
  | filter
  | format
  deriving DecidableEq, Repr

/-- The lines written on the way of a record. -/
def LoggingLibrary.emitted : List LoggingStep → LogRecord τ σ ε → List (Option Str)
  | [], _ => []
  | .filter :: steps, record => emitted steps (library.filter record)
  | .format :: steps, record =>
      (library.format record).1 :: emitted steps (library.format record).2

end Logging

end MuxivoConsole
