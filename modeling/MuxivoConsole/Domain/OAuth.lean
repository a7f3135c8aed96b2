/-
One-time transactions of the OAuth flows: one links an identity to a user, the other signs
somebody in.
-/
import MuxivoConsole.Domain.Organizations
import MuxivoConsole.Domain.Accounts

namespace MuxivoConsole

structure IdentityLinkTransactionFields where
  id : UUID
  userId : UUID
  provider : LoginIdentityProvider
  stateHash : String
  codeVerifierCiphertext : List UInt8
  expiresAt : Instant
  consumedAt : Option Instant := none
  deriving DecidableEq

def IdentityLinkTransactionFields.postInit (transaction : IdentityLinkTransactionFields) :
    Option String :=
  if transaction.provider = .email then
    some "E-mail is not an external OAuth identity provider."
  else if transaction.stateHash.length ≠ 64 then
    some "OAuth state hash must be a SHA-256-sized hex digest."
  else if transaction.codeVerifierCiphertext.isEmpty then
    some "OAuth PKCE verifier ciphertext must not be empty."
  else none

abbrev IdentityLinkTransaction := Validated IdentityLinkTransactionFields.postInit

structure OAuthLoginTransactionFields where
  id : UUID
  provider : LoginIdentityProvider
  stateHash : String
  codeVerifierCiphertext : List UInt8
  expiresAt : Instant
  deriving DecidableEq

def OAuthLoginTransactionFields.postInit (transaction : OAuthLoginTransactionFields) :
    Option String :=
  if transaction.provider = .email then some "Email is not an OAuth login provider."
  else if transaction.stateHash.length ≠ 64 then
    some "OAuth login state hash must be SHA-256-sized."
  else none

abbrev OAuthLoginTransaction := Validated OAuthLoginTransactionFields.postInit

end MuxivoConsole
