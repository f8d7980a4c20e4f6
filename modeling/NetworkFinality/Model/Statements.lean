import NetworkFinality.Semantics.Transaction
import NetworkFinality.Model.Evidence

/-!
# The stores, statement by statement

`commit`, `put` and `consume` as the classes write them: assignment by assignment, and SQL
statement by SQL statement inside a transaction. Timestamps are any datetimes here, as a
caller may give them, and expiries are aware ones at any offset. Each call answers and leaves
a store, whether it returns or raises.
-/

namespace NetworkFinality

open Python Semantics

/-! ### Evidence -/

/-- A call of an evidence store, with any `datetime`. -/
inductive EvidenceCall where
  | commit (fields : EvidenceFields PyDateTime)
  | get (evidenceId : Str)

/-- A record that was read with a timestamp in UTC. -/
def EvidenceRecord.inUtc (record : EvidenceRecord) : EvidenceRecord PyDateTime :=
  record.dated (.aware record.committedAt false)

namespace InMemoryEvidenceStore

variable [Hashlib] {τ : Type} [Timestamp τ]

/-- `commit`, with the assignments to `_records` and `_tail` one after the other. -/
def commitStatements (fields : EvidenceFields τ) :
    Method PyError (InMemoryEvidenceStore τ) (EvidenceRecord τ) := do
  let tail ← Method.read InMemoryEvidenceStore.tail
  let digest ← fields.bodyDigest tail
  let record : EvidenceRecord τ := { fields with previousDigest := tail, digest := digest }
  Method.assign fun store => { store with records := store.records.set record.evidenceId record }
  Method.assign fun store => { store with tail := digest }
  return record

def call [LocalTime] : EvidenceCall → InMemoryEvidenceStore PyDateTime →
    Except PyError (Option (EvidenceRecord PyDateTime)) × InMemoryEvidenceStore PyDateTime
  | .commit fields, store => (some <$> commitStatements fields).call store
  | .get evidenceId, store => (.ok (store.get evidenceId), store)

/-- A commit assigns both fields or raises before it has assigned one. -/
theorem commitStatements_call (fields : EvidenceFields τ) (store : InMemoryEvidenceStore τ) :
    (commitStatements fields).call store = settle store (store.commit fields) := by
  simp only [commitStatements, commit, Method.call_bind, Method.call_read, Method.call_lift]
  cases fields.bodyDigest store.tail <;> rfl

theorem call_commit [LocalTime] (fields : EvidenceFields PyDateTime)
    (store : InMemoryEvidenceStore PyDateTime) :
    call (.commit fields) store = settle store (Prod.map some id <$> store.commit fields) := by
  rw [call, Method.call_map, commitStatements_call, settle_map]

end InMemoryEvidenceStore

namespace SQLiteEvidenceStore

variable [Hashlib] {τ : Type} [Timestamp τ]

/-- `commit`, as the transaction that reads the tail and inserts the row. -/
def commitStatements (fields : EvidenceFields τ) :
    Method PyError (Connection SQLiteEvidenceStore) (EvidenceRecord τ) := do
  Connection.beginImmediate
  let previous ← Connection.execute fun store => .ok (store.tail, store)
  let digest ← fields.bodyDigest previous
  let record : EvidenceRecord τ := { fields with previousDigest := previous, digest := digest }
  let instant ← Timestamp.toUtc record.committedAt
  Connection.execute fun store => do
    bindInteger record.monotonicCounter
    let after ← store.insert record instant
    return ((), after)
  Connection.commit
  return record

/-- `get` answers with a timestamp in UTC, whatever was committed. -/
def call [LocalTime] : EvidenceCall → SQLiteEvidenceStore →
    Except PyError (Option (EvidenceRecord PyDateTime)) × SQLiteEvidenceStore
  | .commit fields, store => Connection.withConnection (some <$> commitStatements fields) store
  | .get evidenceId, store => (Option.map EvidenceRecord.inUtc <$> store.get evidenceId, store)

/-- A commit inserts one row and commits it, or leaves the table alone. -/
theorem commitStatements_call (fields : EvidenceFields τ) (store : SQLiteEvidenceStore) :
    Connection.withConnection (commitStatements fields) store =
      settle store (store.commit fields) := by
  simp only [Connection.withConnection, commitStatements, commit, Method.call_bind,
    Connection.call_beginImmediate, Connection.call_execute, Method.call_lift]
  cases fields.bodyDigest store.tail with
  | error reason => rfl
  | ok digest =>
      cases Timestamp.toUtc fields.committedAt with
      | error reason => rfl
      | ok instant =>
          cases bindInteger fields.monotonicCounter with
          | error reason => rfl
          | ok bound =>
              simp only [bind, Except.bind, Connection.call_execute]
              cases store.insert ⟨fields, store.tail, digest⟩ instant with
              | error reason => rfl
              | ok after => rfl

theorem call_commit [LocalTime] (fields : EvidenceFields PyDateTime)
    (store : SQLiteEvidenceStore) :
    call (.commit fields) store = settle store (Prod.map some id <$> store.commit fields) := by
  rw [call, Connection.withConnection_map, commitStatements_call, settle_map]

end SQLiteEvidenceStore

/-! ### Activations -/

/-- A call of an activation store. Records are put unused. -/
inductive ActivationCall where
  | put (record : ActivationRecord AwareDateTime) (unused : record.used = false)
  | get (authorityId : Str)
  | consume (authorityId : Str)
  | unconsume (authorityId : Str)
  | isUsed (authorityId : Str)

/-- What a call returns, with expiries of one type. -/
inductive ActivationAnswer (τ : Type) where
  | nothing
  | record (found : Option (ActivationRecord τ))
  | flag (value : Bool)

namespace InMemoryActivationStore

def call : ActivationCall → InMemoryActivationStore AwareDateTime →
    Except PyError (ActivationAnswer AwareDateTime) × InMemoryActivationStore AwareDateTime
  | .put record _, store => settle store ((.nothing, ·) <$> store.put record)
  | .get authorityId, store => (.ok (.record (store.get authorityId)), store)
  | .consume authorityId, store =>
      let (consumed, after) := store.consume authorityId
      (.ok (.flag consumed), after)
  | .unconsume authorityId, store => (.ok .nothing, store.unconsume authorityId)
  | .isUsed authorityId, store => (.ok (.flag (store.isUsed authorityId)), store)

end InMemoryActivationStore

/-- The record with its expiry in UTC. -/
def ActivationRecord.expiring (record : ActivationRecord AwareDateTime) (instant : DateTime) :
    ActivationRecord :=
  { record with expiresAt := instant }

namespace SQLiteActivationStore

/-- `put`, as the transaction that writes the expiry as UTC text. -/
def putStatements (record : ActivationRecord AwareDateTime) :
    Method PyError (Connection SQLiteActivationStore) Unit := do
  Connection.beginImmediate
  let instant ← record.expiresAt.toUtc
  Connection.execute fun store => ((), ·) <$> store.put (record.expiring instant)
  Connection.commit

/-- `consume`, which returns whether the update has changed one row. -/
def consumeStatements (authorityId : Str) :
    Method PyError (Connection SQLiteActivationStore) Bool := do
  Connection.beginImmediate
  let updated ← Connection.execute fun store => store.consume authorityId
  Connection.commit
  return updated

/-- `unconsume`, one statement outside a transaction. -/
def unconsumeStatement (authorityId : Str) :
    Method PyError (Connection SQLiteActivationStore) Unit :=
  Connection.execute fun store => ((), ·) <$> store.unconsume authorityId

def call : ActivationCall → SQLiteActivationStore →
    Except PyError (ActivationAnswer DateTime) × SQLiteActivationStore
  | .put record _, store =>
      Connection.withConnection ((fun _ => .nothing) <$> putStatements record) store
  | .get authorityId, store => (.record <$> store.get authorityId, store)
  | .consume authorityId, store =>
      Connection.withConnection (.flag <$> consumeStatements authorityId) store
  | .unconsume authorityId, store =>
      Connection.withConnection ((fun _ => .nothing) <$> unconsumeStatement authorityId) store
  | .isUsed authorityId, store => (.flag <$> store.isUsed authorityId, store)

/-- `put` of a record whose expiry is at any offset. -/
def putInUtc (store : SQLiteActivationStore) (record : ActivationRecord AwareDateTime) :
    Except PyError SQLiteActivationStore := do
  let instant ← record.expiresAt.toUtc
  store.put (record.expiring instant)

/-- A put inserts one row and commits it, or leaves the table alone. -/
theorem putStatements_call (record : ActivationRecord AwareDateTime)
    (store : SQLiteActivationStore) :
    Connection.withConnection (putStatements record) store =
      settle store (((), ·) <$> store.putInUtc record) := by
  simp only [Connection.withConnection, putStatements, putInUtc, Method.call_bind,
    Connection.call_beginImmediate, Method.call_lift]
  cases record.expiresAt.toUtc with
  | error reason => rfl
  | ok instant =>
      simp only [bind, Except.bind, Connection.call_execute]
      cases store.put (record.expiring instant) with
      | error reason => rfl
      | ok after => rfl

theorem consumeStatements_call (authorityId : Str) (store : SQLiteActivationStore) :
    Connection.withConnection (consumeStatements authorityId) store =
      settle store (store.consume authorityId) := by
  simp only [Connection.withConnection, consumeStatements, Method.call_bind,
    Connection.call_beginImmediate, Connection.call_execute]
  cases store.consume authorityId with
  | error reason => rfl
  | ok result => rfl

theorem call_put (record : ActivationRecord AwareDateTime) (unused : record.used = false)
    (store : SQLiteActivationStore) :
    call (.put record unused) store = settle store ((.nothing, ·) <$> store.putInUtc record) := by
  rw [call, Connection.withConnection_map, putStatements_call]
  cases store.putInUtc record <;> rfl

theorem call_consume (authorityId : Str) (store : SQLiteActivationStore) :
    call (.consume authorityId) store =
      settle store (Prod.map .flag id <$> store.consume authorityId) := by
  rw [call, Connection.withConnection_map, consumeStatements_call, settle_map]

theorem call_unconsume (authorityId : Str) (store : SQLiteActivationStore) :
    call (.unconsume authorityId) store =
      settle store ((.nothing, ·) <$> store.unconsume authorityId) := by
  rw [call, Connection.withConnection_map, unconsumeStatement, Connection.withConnection_execute]
  cases store.unconsume authorityId <;> rfl

end SQLiteActivationStore
end NetworkFinality
