/-
The redaction of credentials in log data: three patterns that are replaced in free text one after
the other, and the keys whose values are dropped from structured data.
-/
import MuxivoConsole.Regex.Backtracking
import MuxivoConsole.Text.Unicode

namespace MuxivoConsole

open Text Regex

/-- `REDACTED_SECRET` -/
def redactedSecret : Str :=
  codesOf "[REDACTED]"

/-- A character as a pattern without regard to case reads it: beyond ASCII, only two forms of `i`,
the long `s` and the Kelvin sign are read as ASCII letters. -/
def foldCase (code : Nat) : Nat :=
  if 65 ≤ code ∧ code ≤ 90 then code + 32
  else if code = 0x130 ∨ code = 0x131 then 105
  else if code = 0x17f then 115
  else if code = 0x212a then 107
  else code

/-- `[A-Za-z0-9]` without regard to case -/
def isAlphanumericCode (code : Nat) : Bool :=
  (97 ≤ foldCase code && foldCase code ≤ 122) || (48 ≤ code && code ≤ 57)

/-- `[A-Za-z0-9._~+/=-]` -/
def isBearerCode (code : Nat) : Bool :=
  isAlphanumericCode code || code ∈ [46, 95, 126, 43, 47, 61, 45]

/-- `[A-Za-z0-9_.-]` -/
def isKeyCode (code : Nat) : Bool :=
  isAlphanumericCode code || code ∈ [95, 46, 45]

/-- `[:=]` -/
def isSeparatorCode (code : Nat) : Bool :=
  code == 58 || code == 61

/-- `["']` -/
def isQuoteCode (code : Nat) : Bool :=
  code == 34 || code == 39

/-- `[^,;\s]` -/
def isHeaderCode (code : Nat) : Bool :=
  !(code == 44 || code == 59 || isSpaceCode code)

/-- `[^"'\s,;&}]` -/
def isValueCode (code : Nat) : Bool :=
  !(isQuoteCode code || isSpaceCode code || code == 44 || code == 59 || code == 38 || code == 125)

/-- A word without regard to case. -/
def caseless (text : String) : Pattern Nat :=
  Pattern.word ((codesOf text).map fun code other => foldCase other == code)

/-- `\s*[:=]\s*` -/
def separator : Pattern Nat :=
  .seq (.many isSpaceCode) (.seq (.one isSeparatorCode) (.many isSpaceCode))

section Patterns

variable (isWord : Nat → Bool)

/-- `_BEARER_PATTERN`, where `isWord` are the word characters of Unicode -/
def bearerPattern : List (Pattern Nat) :=
  [.boundary isWord, caseless "bearer", .some' isSpaceCode, .some' isBearerCode]

/-- `_AUTHORIZATION_HEADER_PATTERN` -/
def authorizationHeaderPattern : List (Pattern Nat) :=
  [.seq (caseless "authorization") separator, .some' isHeaderCode]

/-- `password|secret|token` -/
def keyMarker : Pattern Nat :=
  .either (caseless "password") (.either (caseless "secret") (caseless "token"))

/-- `_KEY_VALUE_SECRET_PATTERN` -/
def keyValueSecretPattern : List (Pattern Nat) :=
  [.boundary isWord, .seq (.many isKeyCode) (.seq keyMarker (.many isKeyCode)), separator,
    .optional isQuoteCode, .some' isValueCode, .optional isQuoteCode]

/-- `_BEARER_PATTERN.sub` -/
def redactBearer (text : Str) : Str :=
  substitute (bearerPattern isWord) (fun _ => codesOf "Bearer " ++ redactedSecret) text

/-- `\1[REDACTED]` -/
def redactedHeader : List Str → Str
  | [header, _] => header ++ redactedSecret
  | texts => texts.flatten

/-- `_AUTHORIZATION_HEADER_PATTERN.sub` -/
def redactAuthorization (text : Str) : Str :=
  substitute authorizationHeaderPattern redactedHeader text

/-- `\1\2\3[REDACTED]\5` -/
def redactedKeyValue : List Str → Str
  | [_, key, separator, quote, _, closing] => key ++ separator ++ quote ++ redactedSecret ++ closing
  | texts => texts.flatten

/-- `_KEY_VALUE_SECRET_PATTERN.sub` -/
def redactKeyValue (text : Str) : Str :=
  substitute (keyValueSecretPattern isWord) redactedKeyValue text

/-- `redact_secret_text` -/
def redactSecretText (text : Str) : Str :=
  redactKeyValue isWord (redactAuthorization (redactBearer isWord text))

end Patterns

/-- `_SENSITIVE_KEY_MARKERS` -/
def sensitiveKeyMarkers : List String :=
  ["authorization", "cookie", "password", "secret", "token"]

/-- `is_sensitive_key` of `str(key)`, where `lower` is `str.lower` -/
def isSensitiveKey (lower : Str → Str) (key : Str) : Bool :=
  let normalized := (lower key).map fun code => if code = 45 then 95 else code
  sensitiveKeyMarkers.any fun marker => decide (codesOf marker <:+: normalized)

/-- The data of log records; keys and scalars are of any kind, and sets are left aside. -/
inductive LogValue (κ σ : Type) where
  | mapping (entries : List (κ × LogValue κ σ))
  | tuple (items : List (LogValue κ σ))
  | list (items : List (LogValue κ σ))
  | string (codes : Str)
  | scalar (value : σ)

section Structures

variable {κ σ : Type} (isWord : Nat → Bool) (isSensitive : κ → Bool)

mutual

/-- `redact_secret` -/
def redactSecret : LogValue κ σ → LogValue κ σ
  | .mapping entries => .mapping (redactEntries entries)
  | .tuple items => .tuple (redactItems items)
  | .list items => .list (redactItems items)
  | .string codes => .string (redactSecretText isWord codes)
  | .scalar value => .scalar value

/-- The entries of a mapping. -/
def redactEntries : List (κ × LogValue κ σ) → List (κ × LogValue κ σ)
  | [] => []
  | (key, item) :: rest =>
      (key, if isSensitive key then .string redactedSecret else redactSecret item) ::
        redactEntries rest

/-- The items of a tuple or a list. -/
def redactItems : List (LogValue κ σ) → List (LogValue κ σ)
  | [] => []
  | item :: rest => redactSecret item :: redactItems rest

end

end Structures

end MuxivoConsole
