/-
Which ID tokens Telegram's client accepts, and which subjects it lets out.
-/
import MuxivoConsole.Infrastructure.TelegramOAuth
import MuxivoConsole.Text.Splitting

namespace MuxivoConsole

open Text Json

/-- A segment that decodes: neither empty nor too long, and base64 once it has been padded. -/
def Decodes (segment : Str) (decoded : List UInt8) : Prop :=
  segment ≠ [] ∧ segment.length ≤ 16384 ∧
    urlsafeB64decode? (segment ++ List.replicate ((4 - segment.length % 4) % 4) 61) = some decoded

/-- A key of type RSA with the identifier. -/
def IsSigningKey (keyId : Str) (key : Members) : Prop :=
  member? key "kid" = some (.string keyId) ∧ member? key "kty" = some (.string (codesOf "RSA"))

/-- The client is the audience, or one of a list. -/
def IsAudience (clientId : Str) (audience : Value) : Prop :=
  audience = .string clientId ∨ ∃ items, audience = .array items ∧ .string clientId ∈ items

section Tokens

variable {κ : Type}

/-- Bytes that spell an object. -/
def TelegramServices.Spells (services : TelegramServices κ) (content : List UInt8)
    (members : Members) : Prop :=
  ∃ text, services.textOf content = some text ∧ loads services.depth text = .ok (.object members)

/-- The body of a successful response is an object. -/
def TelegramServices.Answers (services : TelegramServices κ) (response : Option HttpResponse)
    (members : Members) : Prop :=
  ∃ answer, response = some answer ∧ 200 ≤ answer.statusCode ∧ answer.statusCode < 300 ∧
    services.Spells answer.content members

/-- The first key of the set with the identifier is a usable RSA key, namely this one. -/
def TelegramServices.Publishes (services : TelegramServices κ) (jwksPayload : Members)
    (keyId : Str) (publicKey : κ) : Prop :=
  ∃ before key after, member? jwksPayload "keys" = some (.array (before ++ .object key :: after)) ∧
    (∀ other, .object other ∈ before → ¬ IsSigningKey keyId other) ∧ IsSigningKey keyId key ∧
    ∃ modulus exponent modulusBytes exponentBytes,
      member? key "n" = some (.string modulus) ∧ member? key "e" = some (.string exponent) ∧
        Decodes modulus modulusBytes ∧ Decodes exponent exponentBytes ∧
        0 < fromBytes modulusBytes ∧ 0 < fromBytes exponentBytes ∧
        services.publicKey (fromBytes exponentBytes) (fromBytes modulusBytes) = some publicKey

/-- The header and the claims of a token, with a key of the set that verifies its signature over
the text of both. -/
def TelegramServices.Signed (services : TelegramServices κ) (idToken : Str)
    (jwksPayload claims : Members) : Prop :=
  ∃ first second third, idToken = first ++ 46 :: (second ++ 46 :: third) ∧
    46 ∉ first ∧ 46 ∉ second ∧ 46 ∉ third ∧
    ∃ header headerBytes claimBytes signature keyId publicKey,
      Decodes first headerBytes ∧ services.Spells headerBytes header ∧
      Decodes second claimBytes ∧ services.Spells claimBytes claims ∧
      Decodes third signature ∧
      member? header "alg" = some (.string (codesOf "RS256")) ∧
      member? header "kid" = some (.string keyId) ∧ keyId ≠ [] ∧
      services.Publishes jwksPayload keyId publicKey ∧
      services.verifies publicKey signature ((first ++ 46 :: second).map UInt8.ofNat) = true

/-- The claims are for the client and now: a number `exp` that is not at most `now`, and no number
`iat` beyond the clock skew. -/
structure Current (claims : Members) (clientId : Str) (now : Binary64) : Prop where
  issuer : member? claims "iss" = some (.string (codesOf telegramIssuer))
  audience : ∃ audience, member? claims "aud" = some audience ∧ IsAudience clientId audience
  expiry : ∃ value expiresAt, member? claims "exp" = some value ∧ number? value = some expiresAt ∧
    expiresAt.le now = false
  issued : ∀ value issuedAt, member? claims "iat" = some value → number? value = some issuedAt →
    (now.add maxClockSkewSeconds).lt issuedAt = false

theorem decodeSegment_eq_ok {segment : Str} {decoded : List UInt8} :
    decodeSegment segment = .ok decoded ↔ Decodes segment decoded := by
  rw [decodeSegment, bind_eq_ok, Decodes]
  simp [require_eq_ok, orRaise_eq_ok, and_assoc]

theorem base64urlInt_eq_ok {segment : Str} {number : Nat} :
    base64urlInt segment = .ok number ↔
      ∃ decoded, Decodes segment decoded ∧ 0 < fromBytes decoded ∧ fromBytes decoded = number := by
  rw [base64urlInt, bind_eq_ok]
  apply exists_congr
  intro decoded
  rw [decodeSegment_eq_ok]
  apply and_congr_right
  intro _
  rw [bind_eq_ok]
  simp [require_eq_ok, pure, Except.pure]

theorem textMember?_eq_some {members : Members} {key : String} {text : Str} :
    textMember? members key = some text ↔ member? members key = some (.string text) := by
  rw [textMember?, Option.bind_eq_some_iff]
  simp [Value.string?_eq_some]

theorem isSigningKey_eq_true {keyId : Str} {key : Members} :
    isSigningKey keyId key = true ↔ IsSigningKey keyId key := by
  simp [isSigningKey, IsSigningKey, textMember?_eq_some]

theorem jsonObject_eq_ok {value : Value} {members : Members} :
    jsonObject value = .ok members ↔ value = .object members := by
  rw [jsonObject, orRaise_eq_ok, Value.object?_eq_some]

variable {services : TelegramServices κ} {jwksPayload claims : Members} {keyId clientId : Str}
  {now : Binary64}

/-- A value that is an object, as the client reads one out of bytes. -/
theorem loadsBytes_object {content : List UInt8} {members : Members} :
    (∃ value, services.loadsBytes content = .ok value ∧ jsonObject value = .ok members) ↔
      services.Spells content members := by
  simp only [TelegramServices.loadsBytes, bind_eq_ok, orRaise_eq_ok, jsonObject_eq_ok,
    exists_eq_right, TelegramServices.Spells]

theorem decodeJsonSegment_object {segment : Str} {members : Members} :
    (∃ value, services.decodeJsonSegment segment = .ok value ∧ jsonObject value = .ok members) ↔
      ∃ decoded, Decodes segment decoded ∧ services.Spells decoded members := by
  simp only [TelegramServices.decodeJsonSegment, bind_eq_ok, decodeSegment_eq_ok]
  constructor
  · rintro ⟨value, ⟨decoded, hdecodes, hloads⟩, hobject⟩
    exact ⟨decoded, hdecodes, loadsBytes_object.mp ⟨value, hloads, hobject⟩⟩
  · rintro ⟨decoded, hdecodes, hspells⟩
    obtain ⟨value, hloads, hobject⟩ := loadsBytes_object.mpr hspells
    exact ⟨value, ⟨decoded, hdecodes, hloads⟩, hobject⟩

theorem responseObject_eq_ok {response : Option HttpResponse} {members : Members} :
    services.responseObject response = .ok members ↔ services.Answers response members := by
  simp only [TelegramServices.responseObject, bind_eq_ok, orRaise_eq_ok, require_eq_ok,
    loadsBytes_object, exists_const, decide_eq_true_eq, and_assoc, TelegramServices.Answers]

/-- The first key with the identifier decides. -/
theorem rsaPublicKeyIn_eq_ok {keys : List Value} {publicKey : κ} :
    services.rsaPublicKeyIn keyId keys = .ok publicKey ↔
      ∃ before key after, keys = before ++ .object key :: after ∧
        (∀ other, .object other ∈ before → ¬ IsSigningKey keyId other) ∧
        IsSigningKey keyId key ∧
        ∃ modulus exponent modulusBytes exponentBytes,
          member? key "n" = some (.string modulus) ∧ member? key "e" = some (.string exponent) ∧
            Decodes modulus modulusBytes ∧ Decodes exponent exponentBytes ∧
            0 < fromBytes modulusBytes ∧ 0 < fromBytes exponentBytes ∧
            services.publicKey (fromBytes exponentBytes) (fromBytes modulusBytes) =
              some publicKey := by
  induction keys with
  | nil => simp [TelegramServices.rsaPublicKeyIn]
  | cons head tail ih =>
      rw [TelegramServices.rsaPublicKeyIn]
      cases hhead : head.object?.filter (isSigningKey keyId) with
      | none =>
          -- The head is another key: it belongs to those before the first one.
          have hother : ∀ key, head = .object key → ¬ IsSigningKey keyId key := by
            rintro key rfl hkey
            rw [Value.object?, Option.filter_some_pos (isSigningKey_eq_true.mpr hkey)] at hhead
            cases hhead
          rw [ih]
          constructor
          · rintro ⟨before, key, after, rfl, hbefore, hkey⟩
            refine ⟨head :: before, key, after, rfl, fun other hmem => ?_, hkey⟩
            rcases List.mem_cons.mp hmem with hmem | hmem
            · exact hother other hmem.symm
            · exact hbefore other hmem
          · rintro ⟨before, key, after, hkeys, hbefore, hkey, hread⟩
            cases before with
            | nil =>
                rw [List.nil_append, List.cons.injEq] at hkeys
                exact absurd hkey (hother key hkeys.1)
            | cons first before =>
                rw [List.cons_append, List.cons.injEq] at hkeys
                exact ⟨before, key, after, hkeys.2,
                  fun other hmem => hbefore other (List.mem_cons_of_mem _ hmem), hkey, hread⟩
      | some key =>
          obtain ⟨hobject, hkey⟩ := Option.filter_eq_some_iff.mp hhead
          rw [Value.object?_eq_some] at hobject
          rw [isSigningKey_eq_true] at hkey
          simp only [bind_eq_ok, orRaise_eq_ok, textMember?_eq_some, base64urlInt_eq_ok]
          constructor
          · rintro ⟨modulus, hmodulus, exponent, hexponent, _, ⟨exponentBytes, hE, hposE, rfl⟩, _,
              ⟨modulusBytes, hN, hposN, rfl⟩, hread⟩
            exact ⟨[], key, tail, by rw [hobject, List.nil_append], by simp, hkey, modulus,
              exponent, modulusBytes, exponentBytes, hmodulus, hexponent, hN, hE, hposN, hposE,
              hread⟩
          · rintro ⟨before, first, after, hkeys, hbefore, hfirst, modulus, exponent, modulusBytes,
              exponentBytes, hmodulus, hexponent, hN, hE, hposN, hposE, hread⟩
            cases before with
            | nil =>
                rw [hobject, List.nil_append, List.cons.injEq, Value.object.injEq] at hkeys
                obtain ⟨rfl, -⟩ := hkeys
                exact ⟨modulus, hmodulus, exponent, hexponent, _, ⟨exponentBytes, hE, hposE, rfl⟩,
                  _, ⟨modulusBytes, hN, hposN, rfl⟩, hread⟩
            | cons other before =>
                rw [hobject, List.cons_append, List.cons.injEq] at hkeys
                exact absurd hkey (hbefore key (hkeys.1 ▸ List.mem_cons_self))

theorem rsaPublicKeyFor_eq_ok {publicKey : κ} :
    services.rsaPublicKeyFor jwksPayload keyId = .ok publicKey ↔
      services.Publishes jwksPayload keyId publicKey := by
  simp only [TelegramServices.rsaPublicKeyFor, bind_eq_ok, orRaise_eq_ok,
    Option.bind_eq_some_iff, Value.array?_eq_some, rsaPublicKeyIn_eq_ok,
    TelegramServices.Publishes]
  constructor
  · rintro ⟨keys, ⟨value, hkeys, rfl⟩, before, key, after, rfl, hkey⟩
    exact ⟨before, key, after, hkeys, hkey⟩
  · rintro ⟨before, key, after, hkeys, hkey⟩
    exact ⟨_, ⟨_, hkeys, rfl⟩, before, key, after, rfl, hkey⟩

theorem isUnexpired_eq_true : isUnexpired now claims = true ↔
    ∃ value expiresAt, member? claims "exp" = some value ∧ number? value = some expiresAt ∧
      expiresAt.le now = false := by
  simp only [isUnexpired, Option.any_eq_true, Option.bind_eq_some_iff, Bool.not_eq_true']
  constructor
  · rintro ⟨expiresAt, ⟨value, hvalue, hnumber⟩, hlater⟩
    exact ⟨value, expiresAt, hvalue, hnumber, hlater⟩
  · rintro ⟨value, expiresAt, hvalue, hnumber, hlater⟩
    exact ⟨expiresAt, ⟨value, hvalue, hnumber⟩, hlater⟩

theorem isIssued_eq_true : isIssued now claims = true ↔
    ∀ value issuedAt, member? claims "iat" = some value → number? value = some issuedAt →
      (now.add maxClockSkewSeconds).lt issuedAt = false := by
  simp only [isIssued, Option.all_eq_true, Option.bind_eq_some_iff, Bool.not_eq_true']
  constructor
  · exact fun hall value issuedAt hvalue hnumber => hall issuedAt ⟨value, hvalue, hnumber⟩
  · rintro hall issuedAt ⟨value, hvalue, hnumber⟩
    exact hall value issuedAt hvalue hnumber

theorem namesAudience_eq_true {audience : Option Value} :
    namesAudience clientId audience = true ↔
      ∃ value, audience = some value ∧ IsAudience clientId value := by
  cases audience with
  | none => simp [namesAudience]
  | some value =>
      cases value with
      | string text => simp [namesAudience, IsAudience]
      | array items => simp [namesAudience, IsAudience, Value.string?_eq_some]
      | _ => simp [namesAudience, IsAudience]

/-- Three parts with two marks between them. -/
theorem splitOn_eq_three {text first second third : Str} :
    text.splitOn 46 = [first, second, third] ↔
      text = first ++ 46 :: (second ++ 46 :: third) ∧ 46 ∉ first ∧ 46 ∉ second ∧ 46 ∉ third := by
  constructor
  · intro hsplit
    have hpart : ∀ part ∈ text.splitOn 46, 46 ∉ part := by
      intro part hpart hdot
      rw [List.splitOn_eq_splitOnP] at hpart
      have hother := eq_false_of_mem_splitOnP hpart 46 hdot
      cases hother
    have htext : [46].intercalate (text.splitOn 46) = text := List.intercalate_splitOn 46
    rw [hsplit] at hpart htext
    refine ⟨?_, hpart first (by simp), hpart second (by simp), hpart third (by simp)⟩
    rw [← htext]
    simp
  · rintro ⟨rfl, hfirst, hsecond, hthird⟩
    rw [List.splitOn_append_cons_self_of_not_mem hfirst,
      List.splitOn_append_cons_self_of_not_mem hsecond, List.splitOn_eq_singleton hthird]

/-- A segment that decodes is plain ASCII. -/
theorem Decodes.ascii {segment : Str} {decoded : List UInt8} (hdecodes : Decodes segment decoded) :
    ∀ code ∈ segment, code < 128 := by
  obtain ⟨_, _, hdecoded⟩ := hdecodes
  rw [urlsafeB64decode?] at hdecoded
  split_ifs at hdecoded with hascii
  intro code hcode
  rw [List.all_append, Bool.and_eq_true, List.all_eq_true] at hascii
  exact of_decide_eq_true (hascii.1 code hcode)

theorem asciiBytes?_segments {first second : Str} {header claims : List UInt8}
    (hfirst : Decodes first header) (hsecond : Decodes second claims) :
    asciiBytes? (first ++ 46 :: second) = some ((first ++ 46 :: second).map UInt8.ofNat) := by
  have hascii : (first ++ 46 :: second).all (· < 128) = true := by
    rw [List.all_eq_true]
    intro code hcode
    apply decide_eq_true
    rcases List.mem_append.mp hcode with hcode | hcode
    · exact hfirst.ascii code hcode
    · rcases List.mem_cons.mp hcode with rfl | hcode
      · decide
      · exact hsecond.ascii code hcode
  rw [asciiBytes?, if_pos hascii]

/-- The checks of the claims, in the order of the source. -/
theorem current_iff : Current claims clientId now ↔
    textMember? claims "iss" = some (codesOf telegramIssuer) ∧
      namesAudience clientId (member? claims "aud") = true ∧ isUnexpired now claims = true ∧
        isIssued now claims = true := by
  rw [textMember?_eq_some, namesAudience_eq_true, isUnexpired_eq_true, isIssued_eq_true]
  exact ⟨fun hcurrent => ⟨hcurrent.issuer, hcurrent.audience, hcurrent.expiry, hcurrent.issued⟩,
    fun ⟨hissuer, haudience, hexpiry, hissued⟩ => ⟨hissuer, haudience, hexpiry, hissued⟩⟩

/-- The verification returns the claims of a token exactly if a key of the set signed the token and
the claims are current. -/
theorem verifyIdToken_eq_ok {idToken : Str} :
    services.verifyIdToken idToken jwksPayload clientId now = .ok claims ↔
      services.Signed idToken jwksPayload claims ∧ Current claims clientId now := by
  rw [current_iff]
  constructor
  · intro hverified
    rw [TelegramServices.verifyIdToken] at hverified
    split at hverified
    · rename_i first second third hsplit
      simp only [bind_eq_ok, require_eq_ok, exists_const, decide_eq_true_eq, orRaise_eq_ok,
        Option.filter_eq_some_iff] at hverified
      obtain ⟨headerValue, hfirst, header, hheader, claimsValue, hsecond, found, hclaims, signature,
        hthird, halg, keyId, ⟨hkeyId, hnamed⟩, publicKey, hkey, message, hmessage, hsignature, hiss,
        haud, hexp, hiat, hdone⟩ := hverified
      cases hdone
      obtain ⟨htext, hdots⟩ := splitOn_eq_three.mp hsplit
      obtain ⟨headerBytes, hfirst, hheader⟩ :=
        decodeJsonSegment_object.mp ⟨headerValue, hfirst, hheader⟩
      obtain ⟨claimBytes, hsecond, hclaims⟩ :=
        decodeJsonSegment_object.mp ⟨claimsValue, hsecond, hclaims⟩
      rw [asciiBytes?_segments hfirst hsecond] at hmessage
      cases hmessage
      refine ⟨⟨first, second, third, htext, hdots.1, hdots.2.1, hdots.2.2, header, headerBytes,
        claimBytes, signature, keyId, publicKey, hfirst, hheader, hsecond, hclaims,
        decodeSegment_eq_ok.mp hthird, textMember?_eq_some.mp halg, textMember?_eq_some.mp hkeyId,
        hnamed, rsaPublicKeyFor_eq_ok.mp hkey, hsignature⟩, hiss, haud, hexp, hiat⟩
    · cases hverified
  · rintro ⟨⟨first, second, third, htext, hdot, hdot', hdot'', header, headerBytes, claimBytes,
      signature, keyId, publicKey, hfirst, hheader, hsecond, hclaims, hthird, halg, hkeyId, hnamed,
      hkey, hsignature⟩, hiss, haud, hexp, hiat⟩
    have hsplit := splitOn_eq_three.mpr ⟨htext, hdot, hdot', hdot''⟩
    obtain ⟨headerValue, hheaderValue, hheaderObject⟩ :=
      decodeJsonSegment_object.mpr ⟨headerBytes, hfirst, hheader⟩
    obtain ⟨claimsValue, hclaimsValue, hclaimsObject⟩ :=
      decodeJsonSegment_object.mpr ⟨claimBytes, hsecond, hclaims⟩
    rw [TelegramServices.verifyIdToken, hsplit]
    simp only [hheaderValue, hheaderObject, hclaimsValue, hclaimsObject, ok_bind,
      decodeSegment_eq_ok.mpr hthird, textMember?_eq_some.mpr halg, textMember?_eq_some.mpr hkeyId,
      hnamed, rsaPublicKeyFor_eq_ok.mpr hkey, asciiBytes?_segments hfirst hsecond, hsignature,
      hiss, haud, hexp, hiat, Option.filter_some, orRaise, require, decide_true, if_true, ne_eq,
      not_false_eq_true]
    rfl

end Tokens

section Subjects

variable {κ : Type} {client : TelegramOAuthClient} {services : TelegramServices κ}
  {now : Binary64} {authorizationCode codeVerifier subject : Str}

/-- Telegram vouches for a subject: the exchange of the code answers with a signed token for the
client whose claims are current and name the subject. -/
structure TelegramOAuthClient.Vouched (client : TelegramOAuthClient)
    (services : TelegramServices κ) (now : Binary64)
    (authorizationCode codeVerifier subject : Str) : Prop where
  token : ∃ tokenPayload idToken jwksPayload claims,
    services.Answers (services.token (client.clientId, client.clientSecret)
      (client.form authorizationCode codeVerifier)) tokenPayload ∧
    member? tokenPayload "id_token" = some (.string idToken) ∧
    services.Answers services.jwks jwksPayload ∧
    services.Signed idToken jwksPayload claims ∧ Current claims client.clientId now ∧
    member? claims "sub" = some (.string subject)
  solid : stripCodes subject ≠ []
  bounded : subject.length ≤ 255

theorem TelegramServices.Signed.ne_nil {idToken : Str} {jwksPayload claims : Members}
    (hsigned : services.Signed idToken jwksPayload claims) : idToken ≠ [] := by
  obtain ⟨first, second, third, rfl, _⟩ := hsigned
  simp

theorem verifiedClaims_eq_ok {claims : Members} :
    client.verifiedClaims services now authorizationCode codeVerifier = .ok claims ↔
      ∃ tokenPayload idToken jwksPayload,
        services.Answers (services.token (client.clientId, client.clientSecret)
          (client.form authorizationCode codeVerifier)) tokenPayload ∧
        member? tokenPayload "id_token" = some (.string idToken) ∧
        services.Answers services.jwks jwksPayload ∧
        services.Signed idToken jwksPayload claims ∧ Current claims client.clientId now := by
  simp only [TelegramOAuthClient.verifiedClaims, bind_eq_ok, responseObject_eq_ok, orRaise_eq_ok,
    Option.filter_eq_some_iff, textMember?_eq_some, decide_eq_true_eq, verifyIdToken_eq_ok]
  constructor
  · rintro ⟨tokenPayload, htoken, idToken, ⟨hidToken, _⟩, jwksPayload, hjwks, hsigned, hcurrent⟩
    exact ⟨tokenPayload, idToken, jwksPayload, htoken, hidToken, hjwks, hsigned, hcurrent⟩
  · rintro ⟨tokenPayload, idToken, jwksPayload, htoken, hidToken, hjwks, hsigned, hcurrent⟩
    exact ⟨tokenPayload, htoken, idToken, ⟨hidToken, hsigned.ne_nil⟩, jwksPayload, hjwks, hsigned,
      hcurrent⟩

theorem scanFails_decodeSegment (segment : Str) : ScanFails (decodeSegment segment) :=
  (scanFails_require _).bind fun _ => scanFails_orRaise _

theorem scanFails_base64urlInt (segment : Str) : ScanFails (base64urlInt segment) :=
  (scanFails_decodeSegment segment).bind fun _ =>
    (scanFails_require _).bind fun _ => scanFails_ok _

namespace TelegramServices

theorem scanFails_loadsBytes (content : List UInt8) : ScanFails (services.loadsBytes content) :=
  (scanFails_orRaise _).bind fun text => scanFails_loads services.depth text

theorem scanFails_decodeJsonSegment (segment : Str) :
    ScanFails (services.decodeJsonSegment segment) :=
  (scanFails_decodeSegment segment).bind services.scanFails_loadsBytes

theorem scanFails_responseObject (response : Option HttpResponse) :
    ScanFails (services.responseObject response) :=
  (scanFails_orRaise response).bind fun answer => (scanFails_require _).bind fun _ =>
    (services.scanFails_loadsBytes answer.content).bind fun _ => scanFails_orRaise _

theorem scanFails_rsaPublicKeyIn (keyId : Str) (keys : List Value) :
    ScanFails (services.rsaPublicKeyIn keyId keys) := by
  induction keys with
  | nil => exact scanFails_valueError
  | cons head tail ih =>
      rw [rsaPublicKeyIn]
      cases head.object?.filter (isSigningKey keyId) with
      | none => exact ih
      | some key =>
          exact (scanFails_orRaise _).bind fun modulus => (scanFails_orRaise _).bind fun exponent =>
            (scanFails_base64urlInt exponent).bind fun _ =>
              (scanFails_base64urlInt modulus).bind fun _ => scanFails_orRaise _

theorem scanFails_verifyIdToken (idToken : Str) (jwksPayload : Members) (clientId : Str) :
    ScanFails (services.verifyIdToken idToken jwksPayload clientId now) := by
  rw [verifyIdToken]
  split
  · refine (services.scanFails_decodeJsonSegment _).bind fun _ => (scanFails_orRaise _).bind ?_
    intro header
    refine (services.scanFails_decodeJsonSegment _).bind fun _ => (scanFails_orRaise _).bind ?_
    intro claims
    refine (scanFails_decodeSegment _).bind fun signature => (scanFails_require _).bind fun _ =>
      (scanFails_orRaise _).bind fun keyId => ?_
    refine ((scanFails_orRaise _).bind fun keys =>
      services.scanFails_rsaPublicKeyIn keyId keys).bind fun publicKey =>
        (scanFails_orRaise _).bind fun message => (scanFails_require _).bind fun _ => ?_
    exact (scanFails_require _).bind fun _ => (scanFails_require _).bind fun _ =>
      (scanFails_require _).bind fun _ => (scanFails_require _).bind fun _ => scanFails_ok claims
  · exact scanFails_valueError

end TelegramServices

/-- What goes wrong before the subject is a `ValueError`, except for values nested too deeply. -/
theorem scanFails_verifiedClaims :
    ScanFails (client.verifiedClaims services now authorizationCode codeVerifier) :=
  (services.scanFails_responseObject _).bind fun _ => (scanFails_orRaise _).bind fun idToken =>
    (services.scanFails_responseObject _).bind fun jwksPayload =>
      services.scanFails_verifyIdToken idToken jwksPayload client.clientId

theorem vouched_iff : client.Vouched services now authorizationCode codeVerifier subject ↔
    ∃ claims, client.verifiedClaims services now authorizationCode codeVerifier = .ok claims ∧
      textMember? claims "sub" = some subject ∧ stripCodes subject ≠ [] ∧ subject.length ≤ 255 := by
  constructor
  · rintro ⟨⟨tokenPayload, idToken, jwksPayload, claims, htoken, hidToken, hjwks, hsigned, hcurrent,
      hsubject⟩, hsolid, hbounded⟩
    exact ⟨claims, verifiedClaims_eq_ok.mpr
      ⟨tokenPayload, idToken, jwksPayload, htoken, hidToken, hjwks, hsigned, hcurrent⟩,
      textMember?_eq_some.mpr hsubject, hsolid, hbounded⟩
  · rintro ⟨claims, hclaims, hsubject, hsolid, hbounded⟩
    obtain ⟨tokenPayload, idToken, jwksPayload, htoken, hidToken, hjwks, hsigned, hcurrent⟩ :=
      verifiedClaims_eq_ok.mp hclaims
    exact ⟨⟨tokenPayload, idToken, jwksPayload, claims, htoken, hidToken, hjwks, hsigned, hcurrent,
      textMember?_eq_some.mp hsubject⟩, hsolid, hbounded⟩

theorem resolveSubject_eq_ok :
    client.resolveSubject services now authorizationCode codeVerifier = .ok subject ↔
      client.Vouched services now authorizationCode codeVerifier subject := by
  rw [TelegramOAuthClient.resolveSubject, vouched_iff]
  cases hclaims : client.verifiedClaims services now authorizationCode codeVerifier with
  | error error =>
      dsimp only
      split_ifs <;> simp
  | ok claims =>
      cases hsubject : textMember? claims "sub" with
      | none => simp [hsubject]
      | some found =>
          by_cases hrefused : stripCodes found = [] ∨ 255 < found.length
          · simp only [if_pos hrefused, reduceCtorEq, Except.ok.injEq, exists_eq_left', hsubject,
              Option.some.injEq, false_iff]
            rintro ⟨rfl, hsolid, hbounded⟩
            rcases hrefused with hblank | hlong
            · exact hsolid hblank
            · exact absurd hlong (Nat.not_lt.mpr hbounded)
          · simp only [if_neg hrefused, Except.ok.injEq, exists_eq_left', hsubject,
              Option.some.injEq]
            constructor
            · rintro rfl
              exact ⟨rfl, fun hblank => hrefused (Or.inl hblank),
                Nat.not_lt.mp fun hlong => hrefused (Or.inr hlong)⟩
            · exact fun hfound => hfound.1

theorem resolveSubject_unhandled {error : PythonError}
    (herror : client.resolveSubject services now authorizationCode codeVerifier =
      .error (.unhandled error)) : error = .recursionError := by
  rw [TelegramOAuthClient.resolveSubject] at herror
  cases hclaims : client.verifiedClaims services now authorizationCode codeVerifier with
  | error other =>
      rw [hclaims] at herror
      rcases scanFails_verifiedClaims other hclaims with rfl | rfl
      · cases herror
      · cases herror
        rfl
  | ok claims =>
      rw [hclaims] at herror
      dsimp only at herror
      split at herror
      · split_ifs at herror
        cases herror
      · cases herror

/-- The client lets a subject out exactly if Telegram vouches for it; whatever the answers are, what
it raises otherwise is its own exception, or the one about values nested too deeply. -/
theorem telegram_subject_vouched :
    (client.resolveSubject services now authorizationCode codeVerifier = .ok subject ↔
      client.Vouched services now authorizationCode codeVerifier subject) ∧
    ∀ error, client.resolveSubject services now authorizationCode codeVerifier =
      .error (.unhandled error) → error = .recursionError :=
  ⟨resolveSubject_eq_ok, fun _ => resolveSubject_unhandled⟩

end Subjects

end MuxivoConsole
