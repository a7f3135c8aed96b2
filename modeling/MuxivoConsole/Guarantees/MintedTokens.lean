/-
ID tokens as the provider mints them, and what becomes of them.
-/
import MuxivoConsole.Json.Objects
import MuxivoConsole.Guarantees.TelegramTokens

namespace MuxivoConsole

open Text Json

/-- `number.to_bytes((number.bit_length() + 7) // 8, "big")` -/
def toBigEndian (number : Nat) : List UInt8 :=
  (Nat.digits 256 number).reverse.map UInt8.ofNat

/-- `text.encode()` of a text in ASCII -/
def encodeAscii (text : Str) : List UInt8 := text.map UInt8.ofNat

/-- A key of the published set. -/
structure PublishedKey (key : Members) (keyId : Str) (modulus exponent : Nat) : Prop where
  kind : textMember? key "kty" = some (codesOf "RSA")
  named : textMember? key "kid" = some keyId
  modulus : textMember? key "n" = some (base64url (toBigEndian modulus))
  exponent : textMember? key "e" = some (base64url (toBigEndian exponent))

/-- What an ID token says. -/
structure IdTokenClaims where
  issuer : Str
  audience : Str
  subject : Str
  issuedAt : ℤ
  expiresAt : ℤ
  deriving DecidableEq

def tokenHeader (keyId : Str) : List (Str × Atom) :=
  [(codesOf "alg", .text (codesOf "RS256")), (codesOf "kid", .text keyId),
    (codesOf "typ", .text (codesOf "JWT"))]

def IdTokenClaims.members (claims : IdTokenClaims) : List (Str × Atom) :=
  [(codesOf "iss", .text claims.issuer), (codesOf "aud", .text claims.audience),
    (codesOf "sub", .text claims.subject), (codesOf "iat", .number claims.issuedAt),
    (codesOf "exp", .number claims.expiresAt)]

/-- A segment of a token. -/
def encodedSegment (members : List (Str × Atom)) : Str :=
  base64url (encodeAscii (encodeObject members))

/-- The text that is signed. -/
def signingInput (keyId : Str) (claims : IdTokenClaims) : Str :=
  encodedSegment (tokenHeader keyId) ++ 46 :: encodedSegment claims.members

/-- Members as they are read. -/
def readMembers (members : List (Str × Atom)) : Members :=
  members.map fun member => (member.1, member.2.value)

/-- A token as it is minted: the header, the claims, and the signature of both. -/
def signedIdToken (sign : List UInt8 → List UInt8) (keyId : Str) (claims : IdTokenClaims) : Str :=
  signingInput keyId claims ++ 46 :: base64url (sign (encodeAscii (signingInput keyId claims)))

section Minting

variable {κ : Type} {bytes : List UInt8} {keyId : Str} {claims : IdTokenClaims}
  {services : TelegramServices κ} {sign : List UInt8 → List UInt8} {number : Nat}

theorem fromBytes_toBigEndian : fromBytes (toBigEndian number) = number := by
  have hdigits : ((Nat.digits 256 number).map UInt8.ofNat).map UInt8.toNat =
      Nat.digits 256 number := by
    rw [List.map_map]
    refine (List.map_congr_left fun digit hdigit => ?_).trans (List.map_id _)
    have hlt := Nat.digits_lt_base (by decide) hdigit
    simpa using Nat.mod_eq_of_lt hlt
  rw [fromBytes, toBigEndian, ← List.map_reverse, List.reverse_reverse, hdigits,
    Nat.ofDigits_digits]

theorem toBigEndian_ne_nil (hpositive : 0 < number) : toBigEndian number ≠ [] := by
  simp [toBigEndian, Nat.digits_ne_nil_iff_ne_zero, hpositive.ne']

/-- Segments of at most 12288 bytes are short enough. -/
theorem decodes_base64url (hne : bytes ≠ []) (hlength : bytes.length ≤ 12288) :
    Decodes (base64url bytes) bytes := by
  have hbound := @length_base64url_le bytes
  refine ⟨base64url_ne_nil hne, by omega, ?_⟩
  rw [base64url_padded, urlsafeB64decode?_encode]

/-- Bytes of ASCII are taken for their text, unless one of the first two is zero. -/
def ReadsAscii (textOf : List UInt8 → Option Str) : Prop :=
  ∀ text : Str, (∀ code ∈ text, code < 128) → 0 ∉ text.take 2 →
    textOf (encodeAscii text) = some text

/-- Keys and texts of scalar values, integers of few enough digits, and segments of a bounded
size. -/
structure Mintable (keyId : Str) (claims : IdTokenClaims) : Prop where
  named : keyId ≠ []
  readable : ∀ member ∈ tokenHeader keyId ++ claims.members, ReadableMember member
  headerSize : (encodeObject (tokenHeader keyId)).length ≤ 12288
  claimsSize : (encodeObject claims.members).length ≤ 12288

/-- The published numbers make up a key that verifies what is signed. -/
structure KeyPair (services : TelegramServices κ) (sign : List UInt8 → List UInt8)
    (modulus exponent : Nat) : Prop where
  positive : 0 < modulus ∧ 0 < exponent
  size : (toBigEndian modulus).length ≤ 12288 ∧ (toBigEndian exponent).length ≤ 12288
  verifies : ∃ publicKey, services.publicKey exponent modulus = some publicKey ∧
    ∀ message, services.verifies publicKey (sign message) message = true
  signature : ∀ message, sign message ≠ [] ∧ (sign message).length ≤ 12288

variable {members : List (Str × Atom)} {modulus exponent : Nat} {jwksPayload : Members}
  {before after : List Value} {key : Members}

theorem take_encodeObject (hne : members ≠ []) : (encodeObject members).take 2 = [123, 34] := by
  cases members with
  | nil => exact absurd rfl hne
  | cons head tail =>
      cases tail with
      | nil => rfl
      | cons next others => rfl

theorem spells_encodeObject (hreads : ReadsAscii services.textOf) (hdepth : 0 < services.depth)
    (hne : members ≠ []) (hdistinct : (members.map Prod.fst).Nodup)
    (hmembers : ∀ member ∈ members, ReadableMember member) :
    services.Spells (encodeAscii (encodeObject members)) (readMembers members) := by
  refine ⟨_, hreads _ (ascii_encodeObject members) ?_, ?_⟩
  · rw [take_encodeObject hne]
    decide
  · obtain ⟨depth, hdepth⟩ := Nat.exists_eq_add_of_lt hdepth
    rw [hdepth, Nat.zero_add]
    exact loads_encodeObject hdistinct hmembers

theorem decodes_encodedSegment (hlength : (encodeObject members).length ≤ 12288) :
    Decodes (encodedSegment members) (encodeAscii (encodeObject members)) :=
  decodes_base64url (by simp [encodeAscii, encodeObject]) (by simpa [encodeAscii] using hlength)

/-- A minted key is published under its identifier, if no other key is before it. -/
theorem publishes_of_published {publicKey : κ}
    (hpublished : PublishedKey key keyId modulus exponent)
    (hpositive : 0 < modulus ∧ 0 < exponent)
    (hsize : (toBigEndian modulus).length ≤ 12288 ∧ (toBigEndian exponent).length ≤ 12288)
    (hkey : services.publicKey exponent modulus = some publicKey)
    (hkeys : member? jwksPayload "keys" =
      some (.array (before ++ .object key :: after)))
    (hbefore : ∀ other, .object other ∈ before → ¬ IsSigningKey keyId other) :
    services.Publishes jwksPayload keyId publicKey := by
  refine ⟨before, key, after, hkeys, hbefore,
    ⟨textMember?_eq_some.mp hpublished.named, textMember?_eq_some.mp hpublished.kind⟩,
    base64url (toBigEndian modulus), base64url (toBigEndian exponent), toBigEndian modulus,
    toBigEndian exponent, textMember?_eq_some.mp hpublished.modulus,
    textMember?_eq_some.mp hpublished.exponent,
    decodes_base64url (toBigEndian_ne_nil hpositive.1) hsize.1,
    decodes_base64url (toBigEndian_ne_nil hpositive.2) hsize.2, ?_⟩
  rw [fromBytes_toBigEndian, fromBytes_toBigEndian]
  exact ⟨hpositive.1, hpositive.2, hkey⟩

theorem tokenHeader_ne_nil : tokenHeader keyId ≠ [] := List.cons_ne_nil _ _

theorem members_ne_nil : claims.members ≠ [] := List.cons_ne_nil _ _

theorem distinct_tokenHeader : ((tokenHeader keyId).map Prod.fst).Nodup := by
  change ["alg", "kid", "typ"].map codesOf |>.Nodup
  decide

theorem distinct_members : (claims.members.map Prod.fst).Nodup := by
  change ["iss", "aud", "sub", "iat", "exp"].map codesOf |>.Nodup
  decide

theorem signed_signedIdToken (hreads : ReadsAscii services.textOf) (hdepth : 0 < services.depth)
    (hmintable : Mintable keyId claims) (hpair : KeyPair services sign modulus exponent)
    (hkeys : member? jwksPayload "keys" =
      some (.array (before ++ .object key :: after)))
    (hbefore : ∀ other, .object other ∈ before → ¬ IsSigningKey keyId other)
    (hpublished : PublishedKey key keyId modulus exponent) :
    services.Signed (signedIdToken sign keyId claims) jwksPayload (readMembers claims.members) := by
  obtain ⟨publicKey, hkey, hverifies⟩ := hpair.verifies
  obtain ⟨hsignature, hsignatureSize⟩ := hpair.signature (encodeAscii (signingInput keyId claims))
  have hheader := spells_encodeObject hreads hdepth tokenHeader_ne_nil distinct_tokenHeader
    fun member hmember => hmintable.readable member (List.mem_append_left _ hmember)
  have hclaims := spells_encodeObject hreads hdepth members_ne_nil distinct_members
    fun member hmember => hmintable.readable member (List.mem_append_right _ hmember)
  refine ⟨encodedSegment (tokenHeader keyId), encodedSegment claims.members,
    base64url (sign (encodeAscii (signingInput keyId claims))), ?_, dot_notMem_base64url,
    dot_notMem_base64url, dot_notMem_base64url,
    readMembers (tokenHeader keyId), _, _, _, keyId, publicKey,
    decodes_encodedSegment hmintable.headerSize, hheader,
    decodes_encodedSegment hmintable.claimsSize, hclaims,
    decodes_base64url hsignature hsignatureSize, rfl, rfl, hmintable.named,
    publishes_of_published hpublished hpair.positive hpair.size hkey hkeys hbefore, hverifies _⟩
  rw [signedIdToken, signingInput, List.append_assoc, List.cons_append]

theorem Decodes.unique {segment : Str} {decoded other : List UInt8}
    (hdecoded : Decodes segment decoded) (hother : Decodes segment other) : decoded = other := by
  have hsame := hdecoded.2.2.symm.trans hother.2.2
  exact Option.some.inj hsame

theorem TelegramServices.Spells.unique {content : List UInt8} {found other : Members}
    (hfound : services.Spells content found) (hother : services.Spells content other) :
    found = other := by
  obtain ⟨text, htext, hloads⟩ := hfound
  obtain ⟨text', htext', hloads'⟩ := hother
  cases htext.symm.trans htext'
  cases hloads.symm.trans hloads'
  rfl

theorem TelegramServices.Answers.unique {response : Option HttpResponse} {found other : Members}
    (hfound : services.Answers response found) (hother : services.Answers response other) :
    found = other := by
  obtain ⟨answer, hanswer, _, _, hspells⟩ := hfound
  obtain ⟨answer', hanswer', _, _, hspells'⟩ := hother
  cases hanswer.symm.trans hanswer'
  exact hspells.unique hspells'

/-- A token has one set of claims. -/
theorem TelegramServices.Signed.unique {idToken : Str} {found other : Members}
    (hfound : services.Signed idToken jwksPayload found)
    (hother : services.Signed idToken jwksPayload other) : found = other := by
  obtain ⟨first, second, third, htext, hfirst, hsecond, hthird, _, _, _, _, _, _, _, _, hdecodes,
    hspells, _⟩ := hfound
  obtain ⟨first', second', third', htext', hfirst', hsecond', hthird', _, _, _, _, _, _, _, _,
    hdecodes', hspells', _⟩ := hother
  have hsplit := splitOn_eq_three.mpr ⟨htext, hfirst, hsecond, hthird⟩
  rw [splitOn_eq_three.mpr ⟨htext', hfirst', hsecond', hthird'⟩] at hsplit
  cases hsplit
  rw [hdecodes.unique hdecodes'] at hspells
  exact hspells.unique hspells'

/-- When the claims of a minted token are current. -/
theorem current_readMembers {clientId : Str} {now : Binary64} :
    Current (readMembers claims.members) clientId now ↔
      claims.issuer = codesOf telegramIssuer ∧ claims.audience = clientId ∧
        (Binary64.finite claims.expiresAt).le now = false ∧
          (now.add maxClockSkewSeconds).lt (.finite claims.issuedAt) = false := by
  have hissuer : member? (readMembers claims.members) "iss" = some (.string claims.issuer) := rfl
  have haudience : member? (readMembers claims.members) "aud" = some (.string claims.audience) :=
    rfl
  have hexpiry : member? (readMembers claims.members) "exp" = some (.int claims.expiresAt) := rfl
  have hissued : member? (readMembers claims.members) "iat" = some (.int claims.issuedAt) := rfl
  constructor
  · rintro ⟨hiss, ⟨audience, haud, hnames⟩, ⟨value, expiresAt, hexp, hnumber, hlater⟩, hiat⟩
    rw [haudience] at haud
    rw [hexpiry] at hexp
    cases haud
    cases hexp
    cases hnumber
    refine ⟨Value.string.inj (Option.some.inj (hissuer.symm.trans hiss)), ?_, hlater,
      hiat _ _ hissued rfl⟩
    rcases hnames with hnames | ⟨items, hitems, _⟩
    · exact Value.string.inj hnames
    · cases hitems
  · rintro ⟨hiss, haud, hexp, hiat⟩
    refine ⟨by rw [hissuer, hiss], ⟨_, haudience, Or.inl (by rw [haud])⟩,
      ⟨_, _, hexpiry, rfl, hexp⟩, fun value issuedAt hvalue hnumber => ?_⟩
    rw [hissued] at hvalue
    cases hvalue
    cases hnumber
    exact hiat

end Minting

section Example

/-- A sum in place of a signature. -/
def checksum (message : List UInt8) : List UInt8 := [message.foldl (· + ·) 1]

/-- The claims of a token for the client `c`. -/
def exampleClaims : IdTokenClaims :=
  ⟨codesOf telegramIssuer, [99], [115], 1000, 2000⟩

def exampleKeys : Str :=
  codesOf "\x7b\"keys\":[\x7b\"kty\":\"RSA\",\"kid\":\"k\",\"n\":\"DQ\",\"e\":\"Aw\"\x7d]\x7d"

def exampleTokenBody : List (Str × Atom) :=
  [(codesOf "id_token", .text (signedIdToken checksum [107] exampleClaims))]

/-- The example's endpoints and keys. -/
def exampleServices : TelegramServices Unit where
  token _ _ := some ⟨200, encodeAscii (encodeObject exampleTokenBody)⟩
  jwks := some ⟨200, encodeAscii exampleKeys⟩
  textOf content := some (content.map UInt8.toNat)
  depth := 3
  publicKey _ _ := some ()
  verifies _ signature message := signature == checksum message

theorem readsAscii_example : ReadsAscii exampleServices.textOf := by
  intro text hascii _
  change some ((encodeAscii text).map UInt8.toNat) = some text
  rw [encodeAscii, List.map_map]
  refine congrArg some ((List.map_congr_left fun code hcode => ?_).trans (List.map_id _))
  have hlt := hascii code hcode
  simpa using Nat.mod_eq_of_lt (show code < 256 by omega)

theorem mintable_example : Mintable [107] exampleClaims where
  named := List.cons_ne_nil _ _
  readable := by
    have hkeys : ∀ member ∈ tokenHeader [107] ++ exampleClaims.members,
        ∀ code ∈ member.1, IsScalar code := by
      simp only [IsScalar]
      decide
    have hvalues : ∀ member ∈ tokenHeader [107] ++ exampleClaims.members,
        member.2.Readable := by
      simp only [tokenHeader, IdTokenClaims.members, List.cons_append, List.nil_append,
        List.forall_mem_cons, List.not_mem_nil, false_implies, implies_true, and_true,
        Atom.Readable, IsScalar]
      decide
    exact fun member hmember => ⟨hkeys member hmember, hvalues member hmember⟩
  headerSize := by decide +kernel
  claimsSize := by decide +kernel

theorem keyPair_example : KeyPair exampleServices checksum 13 3 where
  positive := by decide
  size := by decide
  verifies := ⟨(), rfl, fun message => beq_self_eq_true _⟩
  signature message := ⟨List.cons_ne_nil _ _, by simp [checksum]⟩

/-- The first key of the example's set, with the others. -/
def exampleKey? : Option (Members × Members × List Value) := do
  let payload ← (exampleServices.loadsBytes (encodeAscii exampleKeys)).toOption
  let members ← payload.object?
  let keys ← (member? members "keys").bind Value.array?
  let key ← keys.head?.bind Value.object?
  return (members, key, keys.tail)

theorem exists_exampleKey : ∃ members key after, exampleKey? = some (members, key, after) ∧
    PublishedKey key [107] 13 3 := by
  have hkey : exampleKey?.any (fun found => textMember? found.2.1 "kty" = some (codesOf "RSA") ∧
      textMember? found.2.1 "kid" = some [107] ∧
      textMember? found.2.1 "n" = some (base64url (toBigEndian 13)) ∧
      textMember? found.2.1 "e" = some (base64url (toBigEndian 3))) = true := by
    decide +kernel
  obtain ⟨⟨members, key, after⟩, hfound, hchecks⟩ := (Option.any_eq_true _ _).mp hkey
  obtain ⟨hkind, hnamed, hmodulus, hexponent⟩ := of_decide_eq_true hchecks
  exact ⟨members, key, after, hfound, hkind, hnamed, hmodulus, hexponent⟩

theorem answers_exampleKeys {members key : Members} {after : List Value}
    (hfound : exampleKey? = some (members, key, after)) :
    exampleServices.Answers exampleServices.jwks members ∧
      member? members "keys" = some (.array (.object key :: after)) := by
  simp only [exampleKey?, Option.bind_eq_bind, Option.bind_eq_some_iff, Value.object?_eq_some,
    Value.array?_eq_some, pure, Option.some.injEq, Prod.mk.injEq] at hfound
  obtain ⟨payload, hpayload, found, rfl, keys, ⟨_, hkeys, rfl⟩, first, ⟨_, hfirst, rfl⟩, rfl, rfl,
    rfl⟩ := hfound
  have hloads : exampleServices.loadsBytes (encodeAscii exampleKeys) = .ok (.object found) := by
    cases hloads : exampleServices.loadsBytes (encodeAscii exampleKeys) with
    | error error =>
        rw [hloads] at hpayload
        cases hpayload
    | ok value =>
        rw [hloads] at hpayload
        cases hpayload
        rfl
  refine ⟨⟨_, rfl, by decide, by decide, loadsBytes_object.mp ⟨_, hloads, rfl⟩⟩, ?_⟩
  obtain ⟨others, rfl⟩ := List.head?_eq_some_iff.mp hfirst
  exact hkeys

end Example

end MuxivoConsole
