import NetworkFinality.Model.Canonical
import NetworkFinality.Model.State

/-!
# Evidence stores

Each decision is committed as one evidence record. A record's digest covers its
seven fields and the digest of the record committed before it, so the records
form a chain. The in-memory store keeps the chain's tail in a variable of its own;
the SQLite store reads it off the last row, and keeps timestamps as UTC text.

Timestamps are of any type that `astimezone` is called on. The enforcement domain commits
aware ones only.
-/

namespace NetworkFinality

open Python

/-- The keyword arguments of `commit`. -/
structure EvidenceFields (τ : Type := AwareDateTime) where
  evidenceId : Str
  candidateActId : Str
  decisionId : Str
  decision : Str
  committedAt : τ
  protectedStateReference : Str
  monotonicCounter : Int
deriving DecidableEq

@[ext] structure EvidenceRecord (τ : Type := AwareDateTime) extends EvidenceFields τ where
  previousDigest : Str
  digest : Str
deriving DecidableEq

section

variable {τ σ : Type}

/-- The fields with another timestamp. -/
def EvidenceFields.dated (fields : EvidenceFields τ) (time : σ) : EvidenceFields σ where
  evidenceId := fields.evidenceId
  candidateActId := fields.candidateActId
  decisionId := fields.decisionId
  decision := fields.decision
  committedAt := time
  protectedStateReference := fields.protectedStateReference
  monotonicCounter := fields.monotonicCounter

/-- The record with another timestamp. -/
def EvidenceRecord.dated (record : EvidenceRecord τ) (time : σ) : EvidenceRecord σ where
  toEvidenceFields := record.toEvidenceFields.dated time
  previousDigest := record.previousDigest
  digest := record.digest

end

/-- `{**kwargs, "previous_digest": previous}`. -/
def EvidenceFields.body (fields : EvidenceFields) (previousDigest : Str) : Value :=
  .dict [Value.field "evidence_id" (.str fields.evidenceId),
    Value.field "candidate_act_id" (.str fields.candidateActId),
    Value.field "decision_id" (.str fields.decisionId),
    Value.field "decision" (.str fields.decision),
    Value.field "protected_state_reference" (.str fields.protectedStateReference),
    Value.field "monotonic_counter" (.int fields.monotonicCounter),
    Value.field "committed_at" (.datetime fields.committedAt),
    Value.field "previous_digest" (.str previousDigest)]

/-- The digest a record of these fields has after `previousDigest`. -/
def EvidenceFields.bodyDigest [Hashlib] {τ : Type} [Timestamp τ] (fields : EvidenceFields τ)
    (previousDigest : Str) : Except PyError Str := do
  let time ← Timestamp.aware fields.committedAt
  digestValue ((fields.dated time).body previousDigest) .sha256

theorem EvidenceFields.bodyDigest_ok [Hashlib] {τ : Type} [Timestamp τ]
    {fields : EvidenceFields τ} {previousDigest digest : Str} :
    fields.bodyDigest previousDigest = .ok digest ↔
      ∃ time, Timestamp.aware fields.committedAt = .ok time ∧
        digestValue ((fields.dated time).body previousDigest) .sha256 = .ok digest :=
  bind_eq_ok

theorem EvidenceFields.bodyDigest_aware [Hashlib] (fields : EvidenceFields)
    (previousDigest : Str) :
    fields.bodyDigest previousDigest = digestValue (fields.body previousDigest) .sha256 := rfl

def genesis : Str := "GENESIS"

/-! ### The in-memory store -/

structure InMemoryEvidenceStore (τ : Type := AwareDateTime) where
  records : Dict (EvidenceRecord τ)
  tail : Str

namespace InMemoryEvidenceStore

variable {τ : Type}

def empty : InMemoryEvidenceStore τ := ⟨∅, genesis⟩

/-- A repeated identifier replaces the earlier record. -/
def commit [Hashlib] [Timestamp τ] (store : InMemoryEvidenceStore τ) (fields : EvidenceFields τ) :
    Except PyError (EvidenceRecord τ × InMemoryEvidenceStore τ) := do
  let digest ← fields.bodyDigest store.tail
  let record : EvidenceRecord τ := { fields with previousDigest := store.tail, digest := digest }
  return (record, ⟨store.records.set fields.evidenceId record, digest⟩)

def get (store : InMemoryEvidenceStore τ) (evidenceId : Str) : Option (EvidenceRecord τ) :=
  store.records.get evidenceId

end InMemoryEvidenceStore

/-! ### The SQLite store -/

/-- Binding an integer as an SQL parameter: SQLite integers have 64 bits. -/
def bindInteger (value : Int) : Except PyError Unit :=
  if -2 ^ 63 ≤ value ∧ value < 2 ^ 63 then .ok () else .error .overflowError

/-- One row of the table `evidence`, in the order of `seq`. -/
structure EvidenceRow where
  evidenceId : Str
  candidateActId : Str
  decisionId : Str
  decision : Str
  committedAt : Str
  protectedStateReference : Str
  monotonicCounter : Int
  previousDigest : Str
  digest : Str
deriving DecidableEq

/-- The table `evidence`. Its identifiers are unique and have been bound as SQL
text, and its timestamps have been written by `isoformat`. -/
structure SQLiteEvidenceStore where
  rows : List EvidenceRow
  unique : (rows.map (·.evidenceId)).Nodup
  written : ∀ row ∈ rows, Str.Encodable row.evidenceId ∧
    ∃ time : DateTime, row.committedAt = time.isoformat

namespace SQLiteEvidenceStore

variable {τ : Type}

@[ext] theorem ext {left right : SQLiteEvidenceStore} (rows : left.rows = right.rows) :
    left = right := by
  cases left
  cases right
  cases rows
  rfl

def empty : SQLiteEvidenceStore where
  rows := []
  unique := List.nodup_nil
  written := by simp

/-- The digest of the row with the largest `seq`. -/
def tail (store : SQLiteEvidenceStore) : Str :=
  match store.rows.getLast? with
  | some row => row.digest
  | none => genesis

/-- `INSERT INTO evidence`, with the timestamp as an instant. -/
def insert (store : SQLiteEvidenceStore) (record : EvidenceRecord τ) (instant : DateTime) :
    Except PyError SQLiteEvidenceStore :=
  if bound : ∀ text ∈ [record.evidenceId, record.candidateActId, record.decisionId,
      record.decision, record.protectedStateReference, record.previousDigest, record.digest],
      Str.Encodable text then
    if free : record.evidenceId ∉ store.rows.map (·.evidenceId) then .ok {
      rows := store.rows ++ [{
        evidenceId := record.evidenceId
        candidateActId := record.candidateActId
        decisionId := record.decisionId
        decision := record.decision
        committedAt := instant.isoformat
        protectedStateReference := record.protectedStateReference
        monotonicCounter := record.monotonicCounter
        previousDigest := record.previousDigest
        digest := record.digest }]
      unique := by
        rw [List.map_append, List.map_singleton, ← List.concat_eq_append]
        exact List.Nodup.concat free store.unique
      written := by
        intro row member
        rcases List.mem_append.mp member with old | new
        · exact store.written row old
        · rw [List.mem_singleton.mp new]
          exact ⟨bound _ (by simp), instant, rfl⟩ }
    else .error .integrityError
  else .error .unicodeEncodeError

def commit [Hashlib] [Timestamp τ] (store : SQLiteEvidenceStore) (fields : EvidenceFields τ) :
    Except PyError (EvidenceRecord τ × SQLiteEvidenceStore) := do
  let digest ← fields.bodyDigest store.tail
  let record : EvidenceRecord τ := { fields with previousDigest := store.tail, digest := digest }
  let instant ← Timestamp.toUtc fields.committedAt
  bindInteger fields.monotonicCounter
  let after ← store.insert record instant
  return (record, after)

def get (store : SQLiteEvidenceStore) (evidenceId : Str) :
    Except PyError (Option EvidenceRecord) := do
  bindText [evidenceId]
  match store.rows.find? (·.evidenceId = evidenceId) with
  | none => return none
  | some row =>
      let committedAt ← DateTime.fromisoformat row.committedAt
      return some {
        evidenceId := row.evidenceId
        candidateActId := row.candidateActId
        decisionId := row.decisionId
        decision := row.decision
        committedAt := .utc committedAt
        protectedStateReference := row.protectedStateReference
        monotonicCounter := row.monotonicCounter
        previousDigest := row.previousDigest
        digest := row.digest }

/-- `SQLiteEvidenceStore(path)` on the file of an earlier store: `CREATE TABLE IF
NOT EXISTS` keeps the table. -/
def reopen (store : SQLiteEvidenceStore) : SQLiteEvidenceStore where
  rows := store.rows
  unique := store.unique
  written := store.written

end SQLiteEvidenceStore

/-! ### Either store -/

/-- The store of a system: one of the two classes that implement the protocol. -/
inductive EvidenceStore where
  | inMemory (store : InMemoryEvidenceStore)
  | sqlite (store : SQLiteEvidenceStore)

namespace EvidenceStore

def commit [Hashlib] : EvidenceStore → EvidenceFields →
    Except PyError (EvidenceRecord × EvidenceStore)
  | .inMemory store, fields => do
      let (record, store) ← store.commit fields
      return (record, .inMemory store)
  | .sqlite store, fields => do
      let (record, store) ← store.commit fields
      return (record, .sqlite store)

def get : EvidenceStore → Str → Except PyError (Option EvidenceRecord)
  | .inMemory store, evidenceId => .ok (store.get evidenceId)
  | .sqlite store, evidenceId => store.get evidenceId

/-- An in-memory store has no file to open again. -/
def reopen : EvidenceStore → EvidenceStore
  | .inMemory store => .inMemory store
  | .sqlite store => .sqlite store.reopen

end EvidenceStore
end NetworkFinality
