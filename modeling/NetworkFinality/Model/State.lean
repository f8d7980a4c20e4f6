import Mathlib.Data.Finset.Insert
import NetworkFinality.Model.Models

/-!
# Protected state and activation stores

`ProtectedNetworkState` is the mutable state the enforcement domain and the sinks
read. The activation stores hold one record for each issued authority and its
consumption flag: the in-memory store keeps the flags in a set beside the records,
the SQLite store keeps them in a column of the same row and the expiry as text.

An operation that raises leaves its store as it was, so only a successful one
returns a store.
-/

namespace NetworkFinality

open Python

/-! ### Protected network state -/

structure ProtectedNetworkState where
  policyEpoch : Int
  authorityEpoch : Int
  revocationEpoch : Int
  topologyEpoch : Int
  configurationEpoch : Int
  protectedStateReference : Str
  monotonicCounter : Int
  allowedSinkIds : Finset Str
  allowedJurisdictions : Finset Str
  allowedPurposes : Finset Str
  requireAttestation : Bool
deriving DecidableEq

/-- The epochs a state holds, so that a read can name one. -/
inductive Epoch where
  | policy
  | authority
  | revocation
  | topology
  | configuration
deriving DecidableEq

/-- The epochs an authority is bound to. -/
def AuthorityBinding.epoch (binding : AuthorityBinding) : Epoch → Nat
  | .policy => binding.policyEpoch
  | .authority => binding.authorityEpoch
  | .revocation => binding.revocationEpoch
  | .topology => binding.topologyEpoch
  | .configuration => binding.configurationEpoch

/-- The allowlists a state holds. -/
inductive Allowlist where
  | sinkIds
  | jurisdictions
  | purposes
deriving DecidableEq

namespace ProtectedNetworkState

def epoch (state : ProtectedNetworkState) : Epoch → Int
  | .policy => state.policyEpoch
  | .authority => state.authorityEpoch
  | .revocation => state.revocationEpoch
  | .topology => state.topologyEpoch
  | .configuration => state.configurationEpoch

def allowed (state : ProtectedNetworkState) : Allowlist → Finset Str
  | .sinkIds => state.allowedSinkIds
  | .jurisdictions => state.allowedJurisdictions
  | .purposes => state.allowedPurposes

def advanceCounter (state : ProtectedNetworkState) : Int × ProtectedNetworkState :=
  (state.monotonicCounter + 1, { state with monotonicCounter := state.monotonicCounter + 1 })

@[simp] theorem advanceCounter_epoch (state : ProtectedNetworkState) (epoch : Epoch) :
    state.advanceCounter.2.epoch epoch = state.epoch epoch := by
  cases epoch <;> rfl

@[simp] theorem advanceCounter_allowed (state : ProtectedNetworkState) (list : Allowlist) :
    state.advanceCounter.2.allowed list = state.allowed list := by
  cases list <;> rfl

@[simp] theorem advanceCounter_reference (state : ProtectedNetworkState) :
    state.advanceCounter.2.protectedStateReference = state.protectedStateReference := rfl

@[simp] theorem advanceCounter_requireAttestation (state : ProtectedNetworkState) :
    state.advanceCounter.2.requireAttestation = state.requireAttestation := rfl

end ProtectedNetworkState

/-! ### Activation records -/

/-- An activation record. The enforcement domain writes its expiry in UTC, which is what
`τ` stands for unless it is given. -/
@[ext] structure ActivationRecord (τ : Type := DateTime) where
  authorityId : Str
  authorityDigest : Str
  candidateDigest : Str
  sinkId : Str
  nonce : Str
  activationCommitment : Str
  expiresAt : τ
  used : Bool
deriving DecidableEq

section

variable {τ : Type}

/-- The record with another consumption flag. -/
def ActivationRecord.withUsed (record : ActivationRecord τ) (used : Bool) : ActivationRecord τ :=
  { record with used := used }

@[simp] theorem ActivationRecord.withUsed_withUsed (record : ActivationRecord τ)
    (first second : Bool) : (record.withUsed first).withUsed second = record.withUsed second := rfl

@[simp] theorem ActivationRecord.withUsed_used (record : ActivationRecord τ) (used : Bool) :
    (record.withUsed used).used = used := rfl

@[simp] theorem ActivationRecord.withUsed_self (record : ActivationRecord τ) :
    record.withUsed record.used = record := rfl

@[simp] theorem ActivationRecord.withUsed_authorityId (record : ActivationRecord τ) (used : Bool) :
    (record.withUsed used).authorityId = record.authorityId := rfl

/-! ### The in-memory store -/

/-- Records by identifier, and the identifiers already consumed. -/
structure InMemoryActivationStore (τ : Type := DateTime) where
  records : Dict (ActivationRecord τ)
  used : Finset Str
  keyed : ∀ id record, records.get id = some record → record.authorityId = id
  usedKnown : ∀ id ∈ used, id ∈ records

namespace InMemoryActivationStore

@[ext] theorem ext {left right : InMemoryActivationStore τ} (records : left.records = right.records)
    (used : left.used = right.used) : left = right := by
  cases left
  cases right
  cases records
  cases used
  rfl

def empty : InMemoryActivationStore τ where
  records := ∅
  used := ∅
  keyed := by simp
  usedKnown := by simp

def put (store : InMemoryActivationStore τ) (record : ActivationRecord τ) :
    Except PyError (InMemoryActivationStore τ) :=
  if record.authorityId ∈ store.records then .error .valueError
  else .ok {
    records := store.records.set record.authorityId record
    used := store.used
    keyed := by
      intro id other found
      rw [Dict.get_set] at found
      split at found
      · next same => rw [same, Option.some.inj found]
      · exact store.keyed id other found
    usedKnown := fun id member => (Finmap.mem_insert ..).mpr (.inr (store.usedKnown id member)) }

def get (store : InMemoryActivationStore τ) (authorityId : Str) : Option (ActivationRecord τ) :=
  store.records.get authorityId

def consume (store : InMemoryActivationStore τ) (authorityId : Str) :
    Bool × InMemoryActivationStore τ :=
  if free : authorityId ∉ store.records ∨ authorityId ∈ store.used then (false, store)
  else (true, {
    records := store.records
    used := insert authorityId store.used
    keyed := store.keyed
    usedKnown := by
      intro id member
      rcases Finset.mem_insert.mp member with rfl | member
      · exact not_not.mp fun missing => free (.inl missing)
      · exact store.usedKnown id member })

def unconsume (store : InMemoryActivationStore τ) (authorityId : Str) : InMemoryActivationStore τ where
  records := store.records
  used := store.used.erase authorityId
  keyed := store.keyed
  usedKnown := fun id member => store.usedKnown id (Finset.mem_of_mem_erase member)

def isUsed (store : InMemoryActivationStore τ) (authorityId : Str) : Bool :=
  authorityId ∈ store.used

end InMemoryActivationStore

end

/-! ### The SQLite store -/

/-- Binding text as an SQL parameter encodes it. -/
def bindText (texts : List Str) : Except PyError Unit :=
  if ∀ text ∈ texts, Str.Encodable text then .ok () else .error .unicodeEncodeError

theorem bindText_ok {texts : List Str} {result : Unit} :
    bindText texts = .ok result ↔ ∀ text ∈ texts, Str.Encodable text := by
  unfold bindText
  split <;> simp_all

/-- One row of the table `activations`, beside its primary key. -/
structure ActivationRow where
  authorityDigest : Str
  candidateDigest : Str
  sinkId : Str
  nonce : Str
  activationCommitment : Str
  expiresAt : Str
  used : Bool
deriving DecidableEq

/-- The table `activations` by primary key. Every key has been bound as SQL text,
and every expiry has been written by `isoformat`. -/
structure SQLiteActivationStore where
  rows : Dict ActivationRow
  written : ∀ id row, rows.get id = some row →
    Str.Encodable id ∧ ∃ time : DateTime, row.expiresAt = time.isoformat

namespace SQLiteActivationStore

@[ext] theorem ext {left right : SQLiteActivationStore} (rows : left.rows = right.rows) :
    left = right := by
  cases left
  cases right
  cases rows
  rfl

def empty : SQLiteActivationStore where
  rows := ∅
  written := by simp

/-- Insert or update one row. -/
def write (store : SQLiteActivationStore) (id : Str) (row : ActivationRow)
    (valid : Str.Encodable id ∧ ∃ time : DateTime, row.expiresAt = time.isoformat) :
    SQLiteActivationStore where
  rows := store.rows.set id row
  written := by
    intro other otherRow found
    rw [Dict.get_set] at found
    split at found
    · next same => rwa [same, ← Option.some.inj found]
    · exact store.written other otherRow found

def put (store : SQLiteActivationStore) (record : ActivationRecord) :
    Except PyError SQLiteActivationStore :=
  if bound : ∀ text ∈ [record.authorityId, record.authorityDigest, record.candidateDigest,
      record.sinkId, record.nonce, record.activationCommitment], Str.Encodable text then
    if record.authorityId ∈ store.rows then .error .integrityError
    else .ok (store.write record.authorityId {
      authorityDigest := record.authorityDigest
      candidateDigest := record.candidateDigest
      sinkId := record.sinkId
      nonce := record.nonce
      activationCommitment := record.activationCommitment
      expiresAt := record.expiresAt.isoformat
      used := false } ⟨bound _ (by simp), _, rfl⟩)
  else .error .unicodeEncodeError

def get (store : SQLiteActivationStore) (authorityId : Str) :
    Except PyError (Option ActivationRecord) := do
  bindText [authorityId]
  match store.rows.get authorityId with
  | none => return none
  | some row =>
      let expiresAt ← DateTime.fromisoformat row.expiresAt
      return some {
        authorityId := authorityId
        authorityDigest := row.authorityDigest
        candidateDigest := row.candidateDigest
        sinkId := row.sinkId
        nonce := row.nonce
        activationCommitment := row.activationCommitment
        expiresAt := expiresAt
        used := row.used }

/-- `UPDATE activations SET used=? WHERE authority_id=?`. -/
def setUsed (store : SQLiteActivationStore) (authorityId : Str) (used : Bool) :
    SQLiteActivationStore :=
  match found : store.rows.get authorityId with
  | some row =>
      store.write authorityId { row with used := used } (store.written authorityId row found)
  | none => store

def consume (store : SQLiteActivationStore) (authorityId : Str) :
    Except PyError (Bool × SQLiteActivationStore) := do
  bindText [authorityId]
  -- The condition `used=0` decides how many rows the update changes.
  match store.rows.get authorityId with
  | some row =>
      if row.used then return (false, store) else return (true, store.setUsed authorityId true)
  | none => return (false, store)

def unconsume (store : SQLiteActivationStore) (authorityId : Str) :
    Except PyError SQLiteActivationStore := do
  bindText [authorityId]
  return store.setUsed authorityId false

def isUsed (store : SQLiteActivationStore) (authorityId : Str) : Except PyError Bool := do
  match ← store.get authorityId with
  | some record => return record.used
  | none => return false

end SQLiteActivationStore

/-! ### Either store -/

/-- The store of a system: one of the two classes that implement the protocol. -/
inductive ActivationStore where
  | inMemory (store : InMemoryActivationStore)
  | sqlite (store : SQLiteActivationStore)

namespace ActivationStore

def put : ActivationStore → ActivationRecord → Except PyError ActivationStore
  | .inMemory store, record => .inMemory <$> store.put record
  | .sqlite store, record => .sqlite <$> store.put record

def get : ActivationStore → Str → Except PyError (Option ActivationRecord)
  | .inMemory store, authorityId => .ok (store.get authorityId)
  | .sqlite store, authorityId => store.get authorityId

def consume : ActivationStore → Str → Except PyError (Bool × ActivationStore)
  | .inMemory store, authorityId =>
      let (consumed, store) := store.consume authorityId
      .ok (consumed, .inMemory store)
  | .sqlite store, authorityId => do
      let (consumed, store) ← store.consume authorityId
      return (consumed, .sqlite store)

def unconsume : ActivationStore → Str → Except PyError ActivationStore
  | .inMemory store, authorityId => .ok (.inMemory (store.unconsume authorityId))
  | .sqlite store, authorityId => .sqlite <$> store.unconsume authorityId

def isUsed : ActivationStore → Str → Except PyError Bool
  | .inMemory store, authorityId => .ok (store.isUsed authorityId)
  | .sqlite store, authorityId => store.isUsed authorityId

end ActivationStore

/-! ### Nonces -/

/-- The nonces the enforcement domain has seen. -/
abbrev NonceRegistry := Finset Str

def NonceRegistry.reserve (registry : NonceRegistry) (nonce : Str) : Bool × NonceRegistry :=
  if nonce ∈ registry then (false, registry) else (true, insert nonce registry)

end NetworkFinality
