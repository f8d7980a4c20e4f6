import NetworkFinality.Model.Authority

/-!
# The HMAC signer and verifier

The keyed hash stays abstract: `Hmac` is any function of a secret and a payload to 32
bytes. The signer writes these bytes as unpadded base64url. The verifier decodes the
text it is given and compares bytes; whatever raises on the way counts as a failure.
-/

namespace NetworkFinality

open Python

/-- HMAC-SHA256, of which only the digest size is known. -/
class Hmac where
  digest : Bytes → Bytes → Bytes
  length_digest : ∀ secret payload, (digest secret payload).length = 32

/-- A keyed polynomial checksum of 32 bytes, to run the model with. -/
@[reducible] def Hmac.checksum : Hmac where
  digest secret payload := bytesOfNumber 32
    ((secret ++ payload).foldl (fun sum byte => (sum * 257 + byte.toNat + 1) % 2 ^ 256) 0)
  length_digest _ _ := length_bytesOfNumber _ _

structure HMACVerifier where
  secret : Bytes
  keyId : Str := "ped-hmac-1"
  algorithm : Str := "HMAC-SHA256"

structure HMACSigner where
  secret : Bytes
  keyId : Str := "ped-hmac-1"
  algorithm : Str := "HMAC-SHA256"

variable [Hmac]

/-- `HMACVerifier.verify`; `compare_digest` is equality of bytes. -/
def HMACVerifier.verify (verifier : HMACVerifier) (payload : Bytes) (signature : Str) : Bool :=
  match b64urlDecode signature with
  | .ok decoded => decide (Hmac.digest verifier.secret payload = decoded)
  | .error _ => false

def HMACSigner.sign (signer : HMACSigner) (payload : Bytes) : Str :=
  b64url (Hmac.digest signer.secret payload)

def HMACSigner.verifier (signer : HMACSigner) : HMACVerifier :=
  ⟨signer.secret, signer.keyId, signer.algorithm⟩

/-- The verifier as the sink holds it. -/
def HMACVerifier.toVerifier (verifier : HMACVerifier) : Verifier :=
  ⟨verifier.keyId, verifier.algorithm, verifier.verify⟩

/-- The signer as the enforcement domain holds it. -/
def HMACSigner.toSigner (signer : HMACSigner) : Signer :=
  ⟨signer.keyId, signer.algorithm, signer.sign⟩

end NetworkFinality
