/-
The client of Telegram's login.  Telegram answers the exchange of a code with a signed ID token; the
client looks the signing key up in the published key set, checks the signature and the claims, and
lets nothing but the subject out.
-/
import MuxivoConsole.Json.Scanner
import MuxivoConsole.Text.Base64
import Mathlib.Data.Nat.Digits.Defs

namespace MuxivoConsole

open Text Json

/-- A response: its status code and the bytes of its body. -/
structure HttpResponse where
  statusCode : Nat
  content : List UInt8

/-- What the client builds on: the two endpoints of Telegram, `none` being an `httpx.HTTPError`;
what `json.loads` takes bytes to spell and how deeply it reads nested values; and the signatures of
the cryptography package. -/
structure TelegramServices (κ : Type) where
  /-- by the credentials and the form data -/
  token : Str × Str → List (Str × Str) → Option HttpResponse
  jwks : Option HttpResponse
  textOf : List UInt8 → Option Str
  depth : Nat
  /-- `RSAPublicNumbers(exponent, modulus).public_key()`, with `none` for the `ValueError` -/
  publicKey : Nat → Nat → Option κ
  /-- whether `verify` accepts a signature of a message, instead of raising `InvalidSignature` -/
  verifies : κ → List UInt8 → List UInt8 → Bool

/-! The attempts below fail with a `ValueError` also where the source has an `httpx.HTTPError` or
an `InvalidSignature`; `resolve_subject` handles the three alike. -/

/-- `_decode_segment` -/
def decodeSegment (segment : Str) : Attempt (List UInt8) := do
  require (segment ≠ [] ∧ segment.length ≤ 16384)
  orRaise .valueError
    (urlsafeB64decode? (segment ++ List.replicate ((4 - segment.length % 4) % 4) 61))

/-- `int.from_bytes(decoded, "big")` -/
def fromBytes (decoded : List UInt8) : Nat :=
  Nat.ofDigits 256 (decoded.reverse.map UInt8.toNat)

/-- `_base64url_int` -/
def base64urlInt (value : Str) : Attempt Nat := do
  let number := fromBytes (← decodeSegment value)
  require (0 < number)
  return number

/-- `_json_object` -/
def jsonObject (value : Value) : Attempt Members :=
  orRaise .valueError value.object?

/-- `members.get(key)`, if it is a text -/
def textMember? (members : Members) (key : String) : Option Str :=
  (member? members key).bind Value.string?

/-- The number that `isinstance(value, (int, float))` lets through; `True` and `False` are the
integers 1 and 0. -/
def number? : Value → Option Binary64
  | .bool flag => some (.finite (if flag then 1 else 0))
  | .int number => some (.finite number)
  | .float number => some number
  | _ => none

/-- `text.encode("ascii")`, with `none` for the `UnicodeEncodeError` -/
def asciiBytes? (text : Str) : Option (List UInt8) :=
  if text.all (· < 128) then some (text.map UInt8.ofNat) else none

def telegramIssuer : String := "https://oauth.telegram.org"

def maxClockSkewSeconds : Binary64 := .finite 60

/-- A key of type RSA with the identifier. -/
def isSigningKey (keyId : Str) (key : Members) : Bool :=
  textMember? key "kid" = some keyId && textMember? key "kty" = some (codesOf "RSA")

/-- The claim `aud` is the client, or a list with the client in it. -/
def namesAudience (expectedClientId : Str) : Option Value → Bool
  | some (.string audience) => audience = expectedClientId
  | some (.array audience) => audience.any fun item => item.string? = some expectedClientId
  | _ => false

/-- The claim `exp` is a number and not `<= now`. -/
def isUnexpired (now : Binary64) (claims : Members) : Bool :=
  ((member? claims "exp").bind number?).any fun expiresAt => !expiresAt.le now

/-- The claim `iat` is no number, or not `> now + 60`. -/
def isIssued (now : Binary64) (claims : Members) : Bool :=
  ((member? claims "iat").bind number?).all fun issuedAt =>
    !(now.add maxClockSkewSeconds).lt issuedAt

namespace TelegramServices

variable {κ : Type} (services : TelegramServices κ)

/-- `json.loads` of bytes -/
def loadsBytes (content : List UInt8) : Attempt Value := do
  loads services.depth (← orRaise .valueError (services.textOf content))

/-- `_decode_json_segment` -/
def decodeJsonSegment (segment : Str) : Attempt Value := do
  services.loadsBytes (← decodeSegment segment)

/-- `_json_object` of the body of a successful response -/
def responseObject (response : Option HttpResponse) : Attempt Members := do
  let response ← orRaise .valueError response
  require (200 ≤ response.statusCode ∧ response.statusCode < 300)
  jsonObject (← services.loadsBytes response.content)

/-- The loop of `_rsa_public_key_for`: only the first key with the identifier is looked at. -/
def rsaPublicKeyIn (keyId : Str) : List Value → Attempt κ
  | [] => .error .valueError
  | key :: keys =>
      match key.object?.filter (isSigningKey keyId) with
      | none => rsaPublicKeyIn keyId keys
      | some key => do
          let modulus ← orRaise .valueError (textMember? key "n")
          let exponent ← orRaise .valueError (textMember? key "e")
          let exponent ← base64urlInt exponent
          let modulus ← base64urlInt modulus
          orRaise .valueError (services.publicKey exponent modulus)

/-- `_rsa_public_key_for` -/
def rsaPublicKeyFor (jwksPayload : Members) (keyId : Str) : Attempt κ := do
  let keys ← orRaise .valueError ((member? jwksPayload "keys").bind Value.array?)
  services.rsaPublicKeyIn keyId keys

/-- `_verify_id_token` -/
def verifyIdToken (idToken : Str) (jwksPayload : Members) (expectedClientId : Str)
    (now : Binary64) : Attempt Members :=
  match idToken.splitOn 46 with
  | [first, second, third] => do
      let header ← jsonObject (← services.decodeJsonSegment first)
      let claims ← jsonObject (← services.decodeJsonSegment second)
      let signature ← decodeSegment third
      require (textMember? header "alg" = some (codesOf "RS256"))
      let keyId ← orRaise .valueError ((textMember? header "kid").filter (· ≠ []))
      let publicKey ← services.rsaPublicKeyFor jwksPayload keyId
      let message ← orRaise .valueError (asciiBytes? (first ++ 46 :: second))
      require (services.verifies publicKey signature message)
      require (textMember? claims "iss" = some (codesOf telegramIssuer))
      require (namesAudience expectedClientId (member? claims "aud"))
      require (isUnexpired now claims)
      require (isIssued now claims)
      return claims
  | _ => .error .valueError

end TelegramServices

structure TelegramOAuthClient where
  clientId : Str
  clientSecret : Str
  redirectUri : Str
  deriving DecidableEq

/-- What `resolve_subject` raises: its own exception, or one that it does not handle. -/
inductive TelegramFailure where
  | unavailable (message : String)
  | unhandled (error : PythonError)
  deriving DecidableEq

/-- The classes that `resolve_subject` handles. -/
def isHandled : PythonError → Bool
  | .typeError | .valueError => true
  | .keyError | .attributeError | .overflowError | .recursionError => false

namespace TelegramOAuthClient

variable {κ : Type}

/-- The form data of the token request. -/
def form (client : TelegramOAuthClient) (authorizationCode codeVerifier : Str) :
    List (Str × Str) :=
  [(codesOf "grant_type", codesOf "authorization_code"),
    (codesOf "code", authorizationCode),
    (codesOf "redirect_uri", client.redirectUri),
    (codesOf "client_id", client.clientId),
    (codesOf "code_verifier", codeVerifier)]

/-- The `try` block of `resolve_subject` -/
def verifiedClaims (client : TelegramOAuthClient) (services : TelegramServices κ)
    (now : Binary64) (authorizationCode codeVerifier : Str) : Attempt Members := do
  let tokenPayload ← services.responseObject
    (services.token (client.clientId, client.clientSecret)
      (client.form authorizationCode codeVerifier))
  let idToken ← orRaise .valueError ((textMember? tokenPayload "id_token").filter (· ≠ []))
  let jwksPayload ← services.responseObject services.jwks
  services.verifyIdToken idToken jwksPayload client.clientId now

/-- `resolve_subject` -/
def resolveSubject (client : TelegramOAuthClient) (services : TelegramServices κ)
    (now : Binary64) (authorizationCode codeVerifier : Str) : Except TelegramFailure Str :=
  match client.verifiedClaims services now authorizationCode codeVerifier with
  | .error error =>
      if isHandled error then .error (.unavailable "Telegram OAuth verification failed.")
      else .error (.unhandled error)
  | .ok claims =>
      match textMember? claims "sub" with
      | some subject =>
          if stripCodes subject = [] ∨ 255 < subject.length then
            .error (.unavailable "Telegram OAuth returned an invalid user subject.")
          else .ok subject
      | none => .error (.unavailable "Telegram OAuth returned an invalid user subject.")

end TelegramOAuthClient

end MuxivoConsole
