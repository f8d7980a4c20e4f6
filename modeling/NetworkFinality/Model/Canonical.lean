import Mathlib.Data.List.DropRight
import NetworkFinality.Python.Base64
import NetworkFinality.Python.Json

/-!
# Canonical bytes and digests

`canonicalJsonBytes` is the byte string every digest and signature covers. It
fails on values that have no canonical form, so each caller either binds the
whole object or raises. The hash functions stay abstract: `Hashlib` is any family
of functions with the output sizes of SHA-2.
-/

namespace NetworkFinality

open Python

mutual
/-- `_normalize`: sorted dicts, UTC timestamps with microseconds and enum values.
Model instances arrive as the dict `model_dump` makes of them. -/
def normalize : Value → Except PyError Value
  | .datetime time => do
      let instant ← time.toUtc
      return .str instant.isoformatMicroseconds
  | .dict items => do
      -- `sorted` runs before any value is normalized.
      let _ ← sortItems items
      let normalized ← normalizeItems items
      let sorted ← sortItems normalized
      return .dict sorted
  | .list items => do
      let normalized ← normalizeList items
      return .list normalized
  | .enum text => .ok (.str text)
  | value => .ok value

def normalizeList : List Value → Except PyError (List Value)
  | [] => .ok []
  | value :: rest => do
      let value ← normalize value
      let rest ← normalizeList rest
      return value :: rest

def normalizeItems : List (Key × Value) → Except PyError (List (Key × Value))
  | [] => .ok []
  | (key, value) :: rest => do
      let value ← normalize value
      let rest ← normalizeItems rest
      return (key, value) :: rest
end

def canonicalJsonBytes (value : Value) : Except PyError Bytes := do
  let normalized ← normalize value
  let text ← dumps normalized
  Str.encode text

/-- The algorithms a `Digest` may name. -/
inductive HashAlgorithm where
  | sha256
  | sha384
  | sha512
deriving DecidableEq

namespace HashAlgorithm

def value : HashAlgorithm → Str
  | sha256 => "SHA-256"
  | sha384 => "SHA-384"
  | sha512 => "SHA-512"

def digestSize : HashAlgorithm → Nat
  | sha256 => 32
  | sha384 => 48
  | sha512 => 64

end HashAlgorithm

/-- The hash functions of `hashlib`, of which only the digest size is known. -/
class Hashlib where
  digest : HashAlgorithm → Bytes → Bytes
  length_digest : ∀ algorithm data, (digest algorithm data).length = algorithm.digestSize

/-- `count` bytes of a number, the lowest first. -/
def bytesOfNumber : Nat → Nat → Bytes
  | 0, _ => []
  | count + 1, number => UInt8.ofNat number :: bytesOfNumber count (number / 256)

theorem length_bytesOfNumber (count number : Nat) : (bytesOfNumber count number).length = count := by
  induction count generalizing number with
  | zero => rfl
  | succ count inductionHypothesis => simp [bytesOfNumber, inductionHypothesis]

/-- A polynomial checksum with the output sizes of SHA-2, to run the model with. -/
@[reducible] def Hashlib.checksum : Hashlib where
  digest algorithm data := bytesOfNumber algorithm.digestSize
    (data.foldl (fun sum byte => (sum * 257 + byte.toNat + 1) % 2 ^ 512) 0)
  length_digest _ _ := length_bytesOfNumber _ _

def hashBytes [Hashlib] (data : Bytes) (algorithm : HashAlgorithm) : Bytes :=
  Hashlib.digest algorithm data

/-- The URL-safe base64 character of a six-bit value. -/
def base64Char (value : Nat) : CodePoint :=
  .scalar <|
    if value < 26 then Char.ofNat (65 + value)
    else if value < 52 then Char.ofNat (71 + value)
    else if value < 62 then Char.ofNat (value - 4)
    else if value = 62 then '-'
    else '_'

/-- `base64.urlsafe_b64encode(data)`. -/
def urlsafeB64encode : Bytes → Str
  | [] => []
  | [a] =>
      let n := a.toNat * 16
      [base64Char (n / 64), base64Char (n % 64)] ++ ("==" : Str)
  | [a, b] =>
      let n := (a.toNat * 256 + b.toNat) * 4
      [base64Char (n / 4096), base64Char (n / 64 % 64), base64Char (n % 64)] ++ ("=" : Str)
  | a :: b :: c :: rest =>
      let n := (a.toNat * 256 + b.toNat) * 256 + c.toNat
      base64Char (n / 262144) :: base64Char (n / 4096 % 64) :: base64Char (n / 64 % 64) ::
        base64Char (n % 64) :: urlsafeB64encode rest

def b64url (data : Bytes) : Str := (urlsafeB64encode data).rdropWhile (· = .scalar '=')

def b64urlDecode (value : Str) : Except PyError Bytes :=
  let padding := List.replicate ((4 - value.length % 4) % 4) (.scalar '=')
  urlsafeB64decode (value ++ padding)

def digestValue [Hashlib] (value : Value) (algorithm : HashAlgorithm) : Except PyError Str := do
  let bytes ← canonicalJsonBytes value
  return b64url (hashBytes bytes algorithm)

end NetworkFinality
