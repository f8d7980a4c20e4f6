import NetworkFinality.Model.Models

/-!
# Signers and authority payloads

A signer and a verifier share a key identifier and an algorithm name. Nothing else
is assumed of them here. The signature covers the authority with an empty
signature field; the authority digest covers it with the signature in place.
-/

namespace NetworkFinality

open Python

/-- The `Signer` protocol. -/
structure Signer where
  keyId : Str
  algorithm : Str
  sign : Bytes → Str

/-- The `Verifier` protocol. Its `verify` turns every exception into `False`. -/
structure Verifier where
  keyId : Str
  algorithm : Str
  verify : Bytes → Str → Bool

/-- A verifier that accepts what the signer signs, as `signer.verifier()` does. -/
structure Signer.VerifiedBy (signer : Signer) (verifier : Verifier) : Prop where
  keyId : verifier.keyId = signer.keyId
  algorithm : verifier.algorithm = signer.algorithm
  accepts : ∀ payload, verifier.verify payload (signer.sign payload) = true

namespace NetworkFinalityAuthority

/-- The authority carrying another signature. -/
def withSignature (authority : NetworkFinalityAuthority) (signature : Str) :
    NetworkFinalityAuthority where
  __ := authority
  issuer := { authority.issuer with signature := signature }

@[simp] theorem withSignature_withSignature (authority : NetworkFinalityAuthority)
    (first second : Str) :
    (authority.withSignature first).withSignature second = authority.withSignature second := rfl

end NetworkFinalityAuthority

/-- The bytes a signature covers. -/
def unsignedAuthorityPayload (authority : NetworkFinalityAuthority) : Except PyError Bytes :=
  canonicalJsonBytes (authority.withSignature []).modelDump

/-- Signing an authority does not change what the signature covers. -/
@[simp] theorem unsignedAuthorityPayload_withSignature (authority : NetworkFinalityAuthority)
    (signature : Str) :
    unsignedAuthorityPayload (authority.withSignature signature) =
      unsignedAuthorityPayload authority := rfl

def authorityDigest [Hashlib] (authority : NetworkFinalityAuthority) : Except PyError Str :=
  digestValue authority.modelDump .sha256

def candidateDigest [Hashlib] (candidate : NetworkCandidateAct) : Except PyError Str :=
  digestValue candidate.modelDump .sha256

end NetworkFinality
