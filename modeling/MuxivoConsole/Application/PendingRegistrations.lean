/-
The stored form of a pending registration: an object of JSON, written from a valid value and decoded
from any text that the store holds.
-/
import MuxivoConsole.Application.Auth
import MuxivoConsole.Json.Objects
import MuxivoConsole.Text.Base64
import MuxivoConsole.UuidText

namespace MuxivoConsole

open Text Json

/-- The members of `to_json`, before they are sorted. -/
def PendingEmailPasswordRegistrationFields.members
    (pending : PendingEmailPasswordRegistrationFields) : List (Str × Atom) :=
  [(codesOf "registration_id", .text (codesOf pending.registrationId.str)),
    (codesOf "email_ciphertext", .text (urlsafeB64encode pending.emailCiphertext)),
    (codesOf "email_lookup_hash", .text (codesOf pending.emailLookupHash)),
    (codesOf "password_hash", .text (codesOf pending.passwordHash)),
    (codesOf "display_name", .text (codesOf pending.displayName)),
    (codesOf "verification_code_hash", .text (codesOf pending.verificationCodeHash)),
    (codesOf "attempts", .number pending.attempts)]

/-- `to_json` -/
def PendingEmailPasswordRegistrationFields.toJson
    (pending : PendingEmailPasswordRegistrationFields) : Str :=
  encodeObject (sortMembers pending.members)

/-- What `from_json` builds: the annotations of the fields are not checked, so the texts and the
counter may be any values. -/
structure DecodedRegistration where
  registrationId : UUID
  emailCiphertext : List UInt8
  emailLookupHash : Value
  passwordHash : Value
  displayName : Value
  verificationCodeHash : Value
  attempts : Value

/-- `len(value)` -/
def lengthOf : Value → Attempt Nat
  | .string codes => .ok codes.length
  | .array items => .ok items.length
  | .object members => .ok members.length
  | _ => .error .typeError

/-- `value.startswith("$argon2id$")` -/
def startsWithArgon2id : Value → Attempt Bool
  | .string codes => .ok ((codesOf "$argon2id$").isPrefixOf codes)
  | _ => .error .attributeError

/-- `not value.strip() or len(value) > 64` -/
def isInvalidName : Value → Attempt Bool
  | .string codes => .ok (stripCodes codes = [] || 64 < codes.length)
  | _ => .error .attributeError

/-- `isinstance(value, int)`, with the number; a truth value is one. -/
def integer? : Value → Option ℤ
  | .int number => some number
  | .bool flag => some (if flag then 1 else 0)
  | _ => none

/-- `UUID(value)` -/
def toUUID : Value → Attempt UUID
  | .string codes => orRaise .valueError (UUID.parse? codes)
  | .null => .error .typeError
  | _ => .error .attributeError

/-- `base64.urlsafe_b64decode(value)` -/
def toBytes : Value → Attempt (List UInt8)
  | .string codes => orRaise .valueError (urlsafeB64decode? codes)
  | _ => .error .typeError

/-- `__post_init__` -/
def DecodedRegistration.postInit (pending : DecodedRegistration) : Attempt Unit := do
  require !pending.emailCiphertext.isEmpty
  require ((← lengthOf pending.emailLookupHash) = 64)
  require (← startsWithArgon2id pending.passwordHash)
  require !(← isInvalidName pending.displayName)
  require ((← lengthOf pending.verificationCodeHash) = 64)
  match integer? pending.attempts with
  | some attempts => require (0 ≤ attempts ∧ attempts ≤ maxVerificationAttempts)
  | none => .error .typeError

/-- The classes that `from_json` catches. -/
def isCaught : PythonError → Bool
  | .keyError | .typeError | .valueError => true
  | .attributeError | .overflowError | .recursionError => false

/-- `payload[key]` -/
def required (payload : Members) (key : String) : Attempt Value :=
  orRaise .keyError (member? payload key)

/-- The constructor, with its arguments from left to right. -/
def decodeRegistration (payload : Members) (ciphertext : List UInt8) (attempts : Value) :
    Attempt DecodedRegistration := do
  let pending : DecodedRegistration := {
    registrationId := ← (required payload "registration_id").bind toUUID
    emailCiphertext := ciphertext
    emailLookupHash := ← required payload "email_lookup_hash"
    passwordHash := ← required payload "password_hash"
    displayName := ← required payload "display_name"
    verificationCodeHash := ← required payload "verification_code_hash"
    attempts := attempts }
  pending.postInit
  return pending

/-- What `from_json` makes of an object. -/
def decodePayload (payload : Members) : Attempt (Option DecodedRegistration) := do
  let ciphertext ← (required payload "email_ciphertext").bind toBytes
  let attempts := (member? payload "attempts").getD (.int 0)
  if (integer? attempts).isNone then return none
  else return some (← decodeRegistration payload ciphertext attempts)

/-- The `except` clause of `from_json`. -/
def orNone {α : Type} : Attempt (Option α) → Attempt (Option α)
  | .ok result => .ok result
  | .error error => if isCaught error then .ok none else .error error

/-- `from_json`, with the error that escapes it, if one does. Arrays and objects may be nested so
deeply. -/
def fromJson (depth : Nat) (value : Str) : Attempt (Option DecodedRegistration) :=
  orNone do
    match (← loads depth value).object? with
    | none => return none
    | some payload => decodePayload payload

/-- A text of scalar values as a string. -/
def textOf? (codes : Str) : Option String :=
  if ∀ code ∈ codes, code < 0xd800 ∨ 0xe000 ≤ code ∧ code < 0x110000 then
    some (String.ofList (codes.map Char.ofNat))
  else none

def text? : Value → Option String
  | .string codes => textOf? codes
  | _ => none

/-- A decoded value whose fields have the types that they are declared with. -/
def DecodedRegistration.typed? (pending : DecodedRegistration) :
    Option PendingEmailPasswordRegistration := do
  let emailLookupHash ← text? pending.emailLookupHash
  let passwordHash ← text? pending.passwordHash
  let displayName ← text? pending.displayName
  let verificationCodeHash ← text? pending.verificationCodeHash
  let attempts ← integer? pending.attempts
  (Validated.make PendingEmailPasswordRegistrationFields.postInit {
    registrationId := pending.registrationId
    emailCiphertext := pending.emailCiphertext
    emailLookupHash
    passwordHash
    displayName
    verificationCodeHash
    attempts }).toOption

/-- The flows with this stored form. -/
def AuthPorts.withJson (ports : AuthPorts) (depth : Nat) : AuthPorts :=
  { ports with
    toJson := fun pending => (textOf? pending.fields.toJson).getD ""
    fromJson := fun value =>
      (MuxivoConsole.fromJson depth (codesOf value)).toOption.join.bind DecodedRegistration.typed? }

end MuxivoConsole
