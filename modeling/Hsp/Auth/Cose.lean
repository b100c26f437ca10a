import Hsp.Codec.Base64
import Hsp.Core.Env

/-!
# Signed payloads

`verify_cose_sign1_payload`: a token is base64url of a `COSE_Sign1` message whose payload decodes,
whose signer the issuer registry knows, and whose Ed25519 signature holds.
-/

namespace Hsp

def IssuerRegistry.resolve (registry : IssuerRegistry) (issuer : String) : Option IssuerRecord :=
  registry.issuers.find? fun candidate => candidate.issuer == issuer

/-- The first issuer with a key identifier.  The source reads the bytes as UTF-8 and compares
strings; strings are equal when their bytes are. -/
def IssuerRegistry.resolveKeyId (registry : IssuerRegistry) (keyId : List UInt8) :
    Option IssuerRecord :=
  registry.issuers.find? fun candidate => utf8 candidate.keyId == keyId

/-- An error of token verification. -/
def tokenError (code message : String) : ApiError := ⟨.auth, code, message⟩

/-- The message of a token has a payload, and the payload decodes. -/
def parsePayload {T : Type} (env : Env) (fromReader : List UInt8 → Option T)
    (tokenB64 payloadName : String) : Except ApiError (CoseSign1 × T) := do
  let tokenBytes ← match Base64.decode tokenB64 with
    | some bytes => pure bytes
    | none => throw (tokenError "invalid_token_base64" s!"invalid {payloadName} encoding")
  let token ← match env.coseFromSlice tokenBytes with
    | some token => pure token
    | none => throw (tokenError "invalid_token_format" s!"invalid COSE_Sign1 {payloadName}")
  let payload ← match token.payload with
    | some payload => pure payload
    | none => throw (tokenError "missing_token_payload" s!"{payloadName} payload is missing")
  match fromReader payload with
  | some claims => pure (token, claims)
  | none => throw (tokenError "invalid_token_claims" s!"{payloadName} payload is not valid CBOR")

/-- The signer of a token: by the issuer the payload names, else by the key of the header. -/
def resolveIssuer (registry : IssuerRegistry) (token : CoseSign1) (issuerName : Option String)
    (payloadName : String) : Except ApiError IssuerRecord :=
  let issuer := match issuerName with
    | some name => registry.resolve name
    | none => if token.keyId ≠ [] then registry.resolveKeyId token.keyId else none
  match issuer with
  | some issuer => pure issuer
  | none => throw (tokenError "unknown_issuer" s!"{payloadName} signer is not trusted")

/-- The signer's key, and the signature under it. -/
def verifySignature (env : Env) (issuer : IssuerRecord) (token : CoseSign1) :
    Except ApiError Unit :=
  match Base64.decode issuer.publicKeyB64 with
  | none => throw (tokenError "invalid_issuer_key" "issuer public key encoding is invalid")
  | some key =>
    if key.length ≠ 32 then
      throw (tokenError "invalid_issuer_key" "issuer public key must be 32 bytes")
    else if !env.validVerifyingKey key then
      throw (tokenError "invalid_issuer_key" "issuer public key is invalid")
    else if token.signature.length ≠ 64 then
      throw (tokenError "invalid_token_signature" "token signature is malformed")
    else if !env.verify key token.signingInput token.signature then
      throw (tokenError "invalid_token_signature" "token signature verification failed")
    else pure ()

/-- `iss` and `aud` read the fields of these names off the payload, if it has them. -/
def verifyCoseSign1Payload {T : Type} (env : Env) (fromReader : List UInt8 → Option T)
    (iss aud : T → Option String) (tokenB64 : String) (registry : IssuerRegistry)
    (payloadName : String) : Except ApiError T := do
  let (token, claims) ← parsePayload env fromReader tokenB64 payloadName
  let issuer ← resolveIssuer registry token (iss claims) payloadName
  if issuer.algorithm ≠ "Ed25519" then
    throw (tokenError "unsupported_token_algorithm" "issuer algorithm is not supported")
  if !issuer.audiences.isEmpty && (aud claims).any (!issuer.audiences.contains ·) then
    throw (tokenError "invalid_token_audience"
      s!"{payloadName} audience is not allowed by issuer registry")
  verifySignature env issuer token
  return claims

/-- A mutation record has neither an issuer nor an audience field. -/
def verifySignedNamespaceRecord (env : Env) (tokenB64 : String) (registry : IssuerRegistry) :
    Except ApiError NamespaceMutationRecord :=
  verifyCoseSign1Payload env env.recordFromReader (fun _ => none) (fun _ => none) tokenB64 registry
    "namespace mutation"

end Hsp
