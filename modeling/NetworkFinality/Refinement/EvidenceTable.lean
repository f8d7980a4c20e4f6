import Mathlib.Logic.Function.Basic
import NetworkFinality.Semantics.Chain
import NetworkFinality.Model.Evidence

/-!
# Evidence stores refine one table and one tail

Either store is a table of records and the digest its next record will name. The
two differ in what a repeated identifier does: the in-memory store replaces the
record, the SQLite store refuses. The SQLite store reads a timestamp back in UTC,
so a stored record agrees with the committed one up to the offset of its instant.
-/

namespace NetworkFinality

open Python Semantics

/-- The record under each evidence identifier. -/
abbrev EvidenceTable (τ : Type := AwareDateTime) := Str → Option (EvidenceRecord τ)

/-- The same record, with its timestamp possibly at another offset. -/
structure EvidenceRecord.SameInstant (stored committed : EvidenceRecord) : Prop where
  fields : { stored with committedAt := committed.committedAt } = committed
  instant : ∃ time, stored.committedAt.toUtc = .ok time ∧ committed.committedAt.toUtc = .ok time

theorem EvidenceRecord.SameInstant.evidenceId {stored committed : EvidenceRecord}
    (same : stored.SameInstant committed) : stored.evidenceId = committed.evidenceId := by
  rw [← same.fields]

theorem EvidenceRecord.SameInstant.previousDigest {stored committed : EvidenceRecord}
    (same : stored.SameInstant committed) : stored.previousDigest = committed.previousDigest := by
  rw [← same.fields]

theorem EvidenceRecord.SameInstant.digest {stored committed : EvidenceRecord}
    (same : stored.SameInstant committed) : stored.digest = committed.digest := by
  rw [← same.fields]

theorem EvidenceRecord.SameInstant.refl {record : EvidenceRecord}
    (instant : ∃ time, record.committedAt.toUtc = .ok time) : record.SameInstant record := by
  obtain ⟨time, inUtc⟩ := instant
  exact ⟨rfl, time, inUtc, inUtc⟩

/-- A digest depends on the instant of a timestamp only. -/
theorem EvidenceFields.bodyDigest_congr [Hashlib] {left right : EvidenceFields}
    (fields : { left with committedAt := right.committedAt } = right)
    (instant : left.committedAt.toUtc = right.committedAt.toUtc) (previousDigest : Str) :
    left.bodyDigest previousDigest = right.bodyDigest previousDigest := by
  have normalized : normalize (left.body previousDigest) = normalize (right.body previousDigest) := by
    rw [← fields]
    simp only [EvidenceFields.body, normalize, normalizeItems, Value.field, instant, sortItems,
      Key.isText, List.all_cons, List.all_nil, Bool.and_self, or_true, true_or, if_true]
    rfl
  rw [EvidenceFields.bodyDigest_aware, EvidenceFields.bodyDigest_aware]
  unfold digestValue canonicalJsonBytes
  rw [normalized]

/-- A digest recomputes from a stored record as it does from the committed one. -/
theorem EvidenceRecord.SameInstant.recomputes [Hashlib] {stored committed : EvidenceRecord}
    (same : stored.SameInstant committed)
    (digest : committed.toEvidenceFields.bodyDigest committed.previousDigest =
      .ok committed.digest) :
    stored.toEvidenceFields.bodyDigest stored.previousDigest = .ok stored.digest := by
  obtain ⟨time, left, right⟩ := same.instant
  have fields : { stored.toEvidenceFields with committedAt := committed.committedAt } =
      committed.toEvidenceFields := congrArg EvidenceRecord.toEvidenceFields same.fields
  rw [EvidenceFields.bodyDigest_congr fields (left.trans right.symm), same.previousDigest, digest,
    same.digest]

section

variable {τ : Type} [Timestamp τ]

/-- A record is committed only with a timestamp that has a UTC instant. -/
theorem EvidenceFields.bodyDigest_instant [Hashlib] {fields : EvidenceFields τ}
    {previousDigest digest : Str} (computed : fields.bodyDigest previousDigest = .ok digest) :
    ∃ time, Timestamp.toUtc fields.committedAt = .ok time := by
  obtain ⟨time, aware, digested⟩ := EvidenceFields.bodyDigest_ok.mp computed
  obtain ⟨bytes, canonical, -⟩ := bind_eq_ok.mp digested
  obtain ⟨normalized, valid, -⟩ := bind_eq_ok.mp canonical
  have inUtc : ∃ instant, time.toUtc = .ok instant := by
    simp only [EvidenceFields.body, EvidenceFields.dated, normalize, normalizeItems, Value.field,
      bind_eq_ok, pure_eq_ok] at valid
    grind
  obtain ⟨instant, inUtc⟩ := inUtc
  exact ⟨instant, bind_eq_ok.mpr ⟨time, aware, inUtc⟩⟩

/-! ### The in-memory store -/

namespace InMemoryEvidenceStore

def table (store : InMemoryEvidenceStore τ) : EvidenceTable τ := store.get

theorem commit_ok [Hashlib] {store after : InMemoryEvidenceStore τ} {fields : EvidenceFields τ}
    {record : EvidenceRecord τ} (committed : store.commit fields = .ok (record, after)) :
    fields.bodyDigest store.tail = .ok record.digest ∧
      record = ⟨fields, store.tail, record.digest⟩ ∧ after.tail = record.digest ∧
      after.table = Function.update store.table fields.evidenceId (some record) := by
  obtain ⟨digest, computed, rest⟩ := bind_eq_ok.mp committed
  obtain ⟨rfl, rfl⟩ := Prod.mk.inj (pure_eq_ok.mp rest)
  refine ⟨computed, rfl, rfl, ?_⟩
  funext other
  by_cases same : other = fields.evidenceId
  · subst same
    simp [table, get]
  · simp [table, get, Dict.get_set_ne _ _ same, Function.update_of_ne same]

end InMemoryEvidenceStore

/-! ### The SQLite store -/

/-- The record a row stands for, when its timestamp is one. -/
def EvidenceRow.record? (row : EvidenceRow) : Option EvidenceRecord :=
  match DateTime.fromisoformat row.committedAt with
  | .ok committedAt => some {
      evidenceId := row.evidenceId
      candidateActId := row.candidateActId
      decisionId := row.decisionId
      decision := row.decision
      committedAt := .utc committedAt
      protectedStateReference := row.protectedStateReference
      monotonicCounter := row.monotonicCounter
      previousDigest := row.previousDigest
      digest := row.digest }
  | .error _ => none

namespace SQLiteEvidenceStore

def table (store : SQLiteEvidenceStore) : EvidenceTable := fun evidenceId =>
  (store.rows.find? (·.evidenceId = evidenceId)).bind (·.record?)

theorem get_eq {store : SQLiteEvidenceStore} {evidenceId : Str} {found : Option EvidenceRecord}
    (read : store.get evidenceId = .ok found) : found = store.table evidenceId := by
  obtain ⟨-, -, read⟩ := bind_eq_ok.mp read
  cases row : store.rows.find? (·.evidenceId = evidenceId) with
  | none =>
      rw [row] at read
      rw [← pure_eq_ok.mp read, table, row]
      rfl
  | some row' =>
      obtain ⟨-, time, text⟩ := store.written row' (List.mem_of_find?_eq_some row)
      simp only [row, text, DateTime.fromisoformat_isoformat, bind_eq_ok, pure_eq_ok,
        Except.ok.injEq, exists_eq_left'] at read
      simp [← read, table, row, EvidenceRow.record?, text]

/-- Reading a record that exists does not fail. -/
theorem get_some {store : SQLiteEvidenceStore} {evidenceId : Str} {record : EvidenceRecord}
    (present : store.table evidenceId = some record) :
    store.get evidenceId = .ok (some record) := by
  obtain ⟨row, found, read⟩ := Option.bind_eq_some_iff.mp present
  obtain ⟨encodable, time, text⟩ := store.written row (List.mem_of_find?_eq_some found)
  have named : row.evidenceId = evidenceId := by simpa using List.find?_some found
  have bound : bindText [evidenceId] = .ok () := by
    rw [bindText_ok, ← named]
    simpa using encodable
  simp only [EvidenceRow.record?, text, DateTime.fromisoformat_isoformat, Option.some.injEq] at read
  exact bind_eq_ok.mpr ⟨(), bound, by simp [found, text, read]⟩

omit [Timestamp τ] in
theorem insert_ok {store after : SQLiteEvidenceStore} {record : EvidenceRecord τ}
    {instant : DateTime} (inserted : store.insert record instant = .ok after) :
    store.table record.evidenceId = none ∧ after.tail = record.digest ∧
      after.table = Function.update store.table record.evidenceId
        (some (record.dated (.utc instant))) := by
  unfold insert at inserted
  split at inserted
  · split at inserted
    · next free =>
        cases inserted
        have absent : store.rows.find? (·.evidenceId = record.evidenceId) = none := by
          rw [List.find?_eq_none]
          intro row member same
          exact free (List.mem_map.mpr ⟨row, member, by simpa using same⟩)
        refine ⟨by simp [table, absent], by simp [tail], ?_⟩
        funext other
        by_cases same : other = record.evidenceId
        · subst same
          simp [table, List.find?_append, absent, EvidenceRow.record?, EvidenceRecord.dated,
            EvidenceFields.dated]
        · simp [table, List.find?_append, Ne.symm same, Function.update_of_ne same]
    · cases inserted
  · cases inserted

theorem commit_ok [Hashlib] {store after : SQLiteEvidenceStore} {fields : EvidenceFields τ}
    {record : EvidenceRecord τ} (committed : store.commit fields = .ok (record, after)) :
    fields.bodyDigest store.tail = .ok record.digest ∧
      record = ⟨fields, store.tail, record.digest⟩ ∧ after.tail = record.digest ∧
      store.table fields.evidenceId = none ∧
      ∃ instant, Timestamp.toUtc fields.committedAt = .ok instant ∧
        after.table = Function.update store.table fields.evidenceId
          (some (record.dated (.utc instant))) := by
  obtain ⟨digest, computed, rest⟩ := bind_eq_ok.mp committed
  obtain ⟨instant, inUtc, rest⟩ := bind_eq_ok.mp rest
  obtain ⟨-, -, rest⟩ := bind_eq_ok.mp rest
  obtain ⟨result, inserted, rest⟩ := bind_eq_ok.mp rest
  obtain ⟨rfl, rfl⟩ := Prod.mk.inj (pure_eq_ok.mp rest)
  obtain ⟨free, tail, table⟩ := insert_ok inserted
  exact ⟨computed, rfl, tail, free, instant, inUtc, table⟩

end SQLiteEvidenceStore

end

/-! ### Either store -/

namespace EvidenceStore

/-- The table a store holds. -/
def table : EvidenceStore → EvidenceTable
  | .inMemory store => store.table
  | .sqlite store => store.table

/-- The digest the next record will name. -/
def tail : EvidenceStore → Str
  | .inMemory store => store.tail
  | .sqlite store => store.tail

/-- What a successful commit returns, and what it does to the table and the tail. -/
structure Committed [Hashlib] (store : EvidenceStore) (fields : EvidenceFields)
    (record : EvidenceRecord) (after : EvidenceStore) : Prop where
  digest : fields.bodyDigest store.tail = .ok record.digest
  returned : record = ⟨fields, store.tail, record.digest⟩
  tail : after.tail = record.digest
  table : ∃ stored : EvidenceRecord, stored.SameInstant record ∧
    after.table = Function.update store.table fields.evidenceId (some stored)

theorem commit_ok [Hashlib] {store after : EvidenceStore} {fields : EvidenceFields}
    {record : EvidenceRecord} (committed : store.commit fields = .ok (record, after)) :
    Committed store fields record after := by
  cases store with
  | inMemory store =>
      obtain ⟨⟨result, next⟩, commit, same⟩ := bind_eq_ok.mp committed
      obtain ⟨rfl, rfl⟩ := Prod.mk.inj (pure_eq_ok.mp same)
      obtain ⟨digest, record, tail, table⟩ := InMemoryEvidenceStore.commit_ok commit
      obtain ⟨time, instant⟩ := EvidenceFields.bodyDigest_instant digest
      rw [Timestamp.toUtc_awareDateTime] at instant
      have named : result.committedAt = fields.committedAt := by rw [record]
      exact ⟨digest, record, tail, result,
        ⟨rfl, time, by rw [named, instant], by rw [named, instant]⟩, table⟩
  | sqlite store =>
      obtain ⟨⟨result, next⟩, commit, same⟩ := bind_eq_ok.mp committed
      obtain ⟨rfl, rfl⟩ := Prod.mk.inj (pure_eq_ok.mp same)
      obtain ⟨digest, record, tail, -, instant, inUtc, table⟩ :=
        SQLiteEvidenceStore.commit_ok commit
      rw [Timestamp.toUtc_awareDateTime] at inUtc
      have named : result.committedAt = fields.committedAt := by rw [record]
      exact ⟨digest, record, tail, result.dated (.utc instant),
        ⟨rfl, instant, AwareDateTime.toUtc_utc instant, by rw [named, inUtc]⟩, table⟩

theorem get_eq {store : EvidenceStore} {evidenceId : Str} {found : Option EvidenceRecord}
    (read : store.get evidenceId = .ok found) : found = store.table evidenceId := by
  cases store with
  | inMemory store => exact (Except.ok.inj read).symm
  | sqlite store => exact SQLiteEvidenceStore.get_eq read

theorem get_some {store : EvidenceStore} {evidenceId : Str} {record : EvidenceRecord}
    (present : store.table evidenceId = some record) :
    store.get evidenceId = .ok (some record) := by
  cases store with
  | inMemory store => exact congrArg Except.ok present
  | sqlite store => exact SQLiteEvidenceStore.get_some present

end EvidenceStore
end NetworkFinality
