/-
The OAuth clients of the providers.  Both exchange a code for an access token and the token
for the user's information, and resolve a subject from what the two endpoints answer.
-/
import MuxivoConsole.Application.OAuth

namespace MuxivoConsole

/-- What `Response.json` returns; the clients look into objects and texts only. -/
inductive JsonValue where
  | text (value : String)
  | object (members : List (String × JsonValue))
  | other

/-- `payload.get(key) if isinstance(payload, dict) else None`: of the members with one key
the last stays. -/
def JsonValue.get? (payload : JsonValue) (key : String) : Option JsonValue :=
  match payload with
  | object members => (members.reverse.find? (·.1 == key)).map (·.2)
  | _ => none

/-- What becomes of a request to an endpoint. -/
inductive HttpAnswer where
  /-- an `httpx.HTTPError` of the transport, or the `ValueError` of a header that cannot be
  encoded -/
  | failed
  /-- a response; `none` is a body that `json` rejects with a `ValueError` -/
  | response (statusCode : Nat) (json : Option JsonValue)

/-- `raise_for_status` and `json`, with `none` for the exceptions that the clients catch -/
def HttpAnswer.payload? : HttpAnswer → Option JsonValue
  | failed => none
  | response statusCode json => if 200 ≤ statusCode ∧ statusCode < 300 then json else none

/-- The endpoints of a provider, by the form data and by the `Authorization` header. -/
structure OAuthEndpoints where
  token : List (String × String) → HttpAnswer
  userInfo : String → HttpAnswer

/-- The form data of the token request. -/
def tokenForm (clientId clientSecret redirectUri authorizationCode codeVerifier : String) :
    List (String × String) :=
  [("client_id", clientId),
    ("client_secret", clientSecret),
    ("grant_type", "authorization_code"),
    ("code", authorizationCode),
    ("redirect_uri", redirectUri),
    ("code_verifier", codeVerifier)]

namespace OAuthEndpoints

/-- The `try` block of `resolve_subject`: the payload of the user's information. -/
def userPayload (endpoints : OAuthEndpoints) (form : List (String × String)) :
    Option JsonValue := do
  let tokenPayload ← (endpoints.token form).payload?
  match tokenPayload.get? "access_token" with
  | some (.text accessToken) =>
      if accessToken = "" then none
      else (endpoints.userInfo ("Bearer " ++ accessToken)).payload?
  | _ => none

/-- The steps that the clients share; they differ in the field of the subject, in what they
accept there, and in the label of their messages. -/
def resolveSubject (endpoints : OAuthEndpoints) (form : List (String × String))
    (subjectField : String) (acceptable : String → Bool) (label : String) :
    Except Failure String :=
  match endpoints.userPayload form with
  | none => .error ⟨.other, label ++ " OAuth verification failed."⟩
  | some userPayload =>
      match userPayload.get? subjectField with
      | some (.text subject) =>
          if !acceptable subject || subject.length > 255 then
            .error ⟨.other, label ++ " OAuth returned an invalid user subject."⟩
          else .ok subject
      | _ => .error ⟨.other, label ++ " OAuth returned an invalid user subject."⟩

end OAuthEndpoints

structure DiscordOAuthClient where
  clientId : String
  clientSecret : String
  redirectUri : String
  deriving DecidableEq

structure OpenIdConnectOAuthClient where
  providerLabel : String
  clientId : String
  clientSecret : String
  redirectUri : String
  subjectField : String := "sub"
  deriving DecidableEq

/-- `str.isdigit`, by the table of the interpreter: which code points are digits. -/
def isdigit (isDigit : Char → Bool) (text : String) : Bool :=
  text ≠ "" && text.toList.all isDigit

/-- `DiscordOAuthClient.resolve_subject` -/
def DiscordOAuthClient.resolveSubject (client : DiscordOAuthClient) (isDigit : Char → Bool)
    (endpoints : OAuthEndpoints) (authorizationCode codeVerifier : String) :
    Except Failure String :=
  endpoints.resolveSubject
    (tokenForm client.clientId client.clientSecret client.redirectUri authorizationCode
      codeVerifier)
    "id" (isdigit isDigit) "Discord"

/-- `OpenIdConnectOAuthClient.resolve_subject` -/
def OpenIdConnectOAuthClient.resolveSubject (client : OpenIdConnectOAuthClient)
    (endpoints : OAuthEndpoints) (authorizationCode codeVerifier : String) :
    Except Failure String :=
  endpoints.resolveSubject
    (tokenForm client.clientId client.clientSecret client.redirectUri authorizationCode
      codeVerifier)
    client.subjectField (!isBlank ·) client.providerLabel

/-- A client of either class. -/
inductive OAuthClient where
  | discord (client : DiscordOAuthClient)
  | openIdConnect (client : OpenIdConnectOAuthClient)
  deriving DecidableEq

namespace OAuthClient

def resolveSubject (client : OAuthClient) (isDigit : Char → Bool) (endpoints : OAuthEndpoints)
    (authorizationCode codeVerifier : String) : Except Failure String :=
  match client with
  | discord client => client.resolveSubject isDigit endpoints authorizationCode codeVerifier
  | openIdConnect client => client.resolveSubject endpoints authorizationCode codeVerifier

end OAuthClient

section Answers

/-- The answers that give a subject: an access token, and a user with an acceptable subject
of at most 255 characters. -/
structure OAuthEndpoints.Vouch (endpoints : OAuthEndpoints) (form : List (String × String))
    (subjectField : String) (acceptable : String → Bool) (subject : String) : Prop where
  answers : ∃ tokenPayload accessToken userPayload,
    (endpoints.token form).payload? = some tokenPayload ∧
      tokenPayload.get? "access_token" = some (.text accessToken) ∧ accessToken ≠ "" ∧
      (endpoints.userInfo ("Bearer " ++ accessToken)).payload? = some userPayload ∧
      userPayload.get? subjectField = some (.text subject)
  acceptable : acceptable subject = true
  bounded : subject.length ≤ 255

/-- The answers from which a client resolves the subject. -/
def OAuthClient.Vouched (client : OAuthClient) (isDigit : Char → Bool)
    (endpoints : OAuthEndpoints) (authorizationCode codeVerifier subject : String) : Prop :=
  match client with
  | discord client =>
      endpoints.Vouch
        (tokenForm client.clientId client.clientSecret client.redirectUri authorizationCode
          codeVerifier)
        "id" (isdigit isDigit) subject
  | openIdConnect client =>
      endpoints.Vouch
        (tokenForm client.clientId client.clientSecret client.redirectUri authorizationCode
          codeVerifier)
        client.subjectField (!isBlank ·) subject

variable {endpoints : OAuthEndpoints} {form : List (String × String)}

theorem OAuthEndpoints.userPayload_eq_some {payload : JsonValue} :
    endpoints.userPayload form = some payload ↔
      ∃ tokenPayload accessToken, (endpoints.token form).payload? = some tokenPayload ∧
        tokenPayload.get? "access_token" = some (.text accessToken) ∧ accessToken ≠ "" ∧
        (endpoints.userInfo ("Bearer " ++ accessToken)).payload? = some payload := by
  rw [OAuthEndpoints.userPayload, Option.bind_eq_bind, Option.bind_eq_some_iff]
  apply exists_congr
  intro tokenPayload
  cases htoken : tokenPayload.get? "access_token" with
  | none => simp
  | some value =>
      cases value with
      | text accessToken =>
          by_cases hempty : accessToken = ""
          · simp [hempty]
          · simp [hempty]
      | object members => simp
      | other => simp

/-- A client resolves a subject exactly from answers that vouch for it. -/
theorem OAuthEndpoints.resolveSubject_eq_ok {subjectField label subject : String}
    {acceptable : String → Bool} :
    endpoints.resolveSubject form subjectField acceptable label = .ok subject ↔
      endpoints.Vouch form subjectField acceptable subject := by
  have hvouch : endpoints.Vouch form subjectField acceptable subject ↔
      ∃ payload, endpoints.userPayload form = some payload ∧
        payload.get? subjectField = some (.text subject) ∧ acceptable subject = true ∧
          subject.length ≤ 255 := by
    constructor
    · rintro ⟨⟨tokenPayload, accessToken, userPayload, htoken, haccess, hne, huser, hfield⟩,
        hacceptable, hbounded⟩
      have hpayload : endpoints.userPayload form = some userPayload :=
        userPayload_eq_some.mpr ⟨tokenPayload, accessToken, htoken, haccess, hne, huser⟩
      exact ⟨userPayload, hpayload, hfield, hacceptable, hbounded⟩
    · rintro ⟨payload, hpayload, hfield, hacceptable, hbounded⟩
      obtain ⟨tokenPayload, accessToken, htoken, haccess, hne, huser⟩ :=
        userPayload_eq_some.mp hpayload
      exact ⟨⟨tokenPayload, accessToken, payload, htoken, haccess, hne, huser, hfield⟩,
        hacceptable, hbounded⟩
  rw [hvouch, OAuthEndpoints.resolveSubject]
  cases endpoints.userPayload form with
  | none => simp
  | some payload =>
      cases hfield : payload.get? subjectField with
      | none => simp [hfield]
      | some value =>
          cases value with
          | text found =>
              by_cases hvalid : acceptable found = true ∧ found.length ≤ 255
              · have hcondition : (!acceptable found || decide (found.length > 255)) = false := by
                  simp [hvalid.1, hvalid.2]
                simp only [hcondition, Bool.false_eq_true, if_false, hfield, Except.ok.injEq,
                  Option.some.injEq, exists_eq_left', JsonValue.text.injEq]
                constructor
                · rintro rfl
                  exact ⟨rfl, hvalid⟩
                · exact fun hfound => hfound.1
              · have hcondition : (!acceptable found || decide (found.length > 255)) = true := by
                  grind
                simp only [hcondition, if_true, hfield, Option.some.injEq, exists_eq_left',
                  JsonValue.text.injEq, reduceCtorEq, false_iff]
                rintro ⟨rfl, hfound⟩
                exact hvalid hfound
          | object members => simp [hfield]
          | other => simp [hfield]

/-- An exception of a client is its own, no `ValueError`. -/
theorem OAuthEndpoints.resolveSubject_error {subjectField label : String}
    {acceptable : String → Bool} {failure : Failure}
    (herror : endpoints.resolveSubject form subjectField acceptable label = .error failure) :
    failure.errorClass = .other := by
  rw [OAuthEndpoints.resolveSubject] at herror
  cases hpayload : endpoints.userPayload form with
  | none =>
      rw [hpayload] at herror
      cases herror
      rfl
  | some payload =>
      rw [hpayload] at herror
      dsimp only at herror
      split at herror
      · split at herror
        · cases herror
          rfl
        · cases herror
      · cases herror
        rfl

namespace OAuthClient

variable {client : OAuthClient} {isDigit : Char → Bool} {code verifier : String}

theorem resolveSubject_eq_ok {subject : String} :
    client.resolveSubject isDigit endpoints code verifier = .ok subject ↔
      client.Vouched isDigit endpoints code verifier subject := by
  cases client with
  | discord client => exact OAuthEndpoints.resolveSubject_eq_ok
  | openIdConnect client => exact OAuthEndpoints.resolveSubject_eq_ok

theorem resolveSubject_error {failure : Failure}
    (herror : client.resolveSubject isDigit endpoints code verifier = .error failure) :
    failure.errorClass = .other := by
  cases client with
  | discord client => exact OAuthEndpoints.resolveSubject_error herror
  | openIdConnect client => exact OAuthEndpoints.resolveSubject_error herror

end OAuthClient

end Answers

end MuxivoConsole
