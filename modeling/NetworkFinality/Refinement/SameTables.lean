import NetworkFinality.Refinement.ActivationTable
import NetworkFinality.Refinement.EvidenceTable
import NetworkFinality.Spec.Encoding

/-!
# Stores that hold one table

What a store answers is a matter of its table, whichever class it is of: two stores with
one table answer alike, as long as they are asked for texts that SQLite can bind and are
given identifiers that are new. Only the flag of a record that is read tells them apart,
and a counter that SQLite has no integer for.
-/

namespace NetworkFinality

open Python Semantics

/-! ### Activation stores -/

namespace SQLiteActivationStore

variable {authorityId : Str}

private theorem bound_of_encodable (encodable : authorityId.Encodable) :
    bindText [authorityId] = .ok () := bindText_ok.mpr (by simpa using encodable)

/-- Each call binds its identifier first. -/
theorem encodable_of_bound {α : Type} {rest : Unit → Except PyError α} {result : α}
    (ran : (bindText [authorityId] >>= rest) = .ok result) : authorityId.Encodable := by
  obtain ⟨_, bound, -⟩ := bind_eq_ok.mp ran
  simpa using bindText_ok.mp bound

/-- Reading under an identifier that can be bound does not fail. -/
theorem get_encodable (store : SQLiteActivationStore) (encodable : authorityId.Encodable) :
    store.get authorityId = .ok (store.table authorityId) := by
  cases row : store.rows.get authorityId with
  | none =>
      rw [table_none row]
      exact bind_eq_ok.mpr ⟨(), bound_of_encodable encodable, by rw [row]; rfl⟩
  | some row' =>
      obtain ⟨-, record, present, -⟩ := row_reads row
      rw [present, get_some present]

theorem isUsed_encodable (store : SQLiteActivationStore) (encodable : authorityId.Encodable) :
    store.isUsed authorityId = .ok ((store.table authorityId).any (·.used)) := by
  refine bind_eq_ok.mpr ⟨store.table authorityId, store.get_encodable encodable, ?_⟩
  cases store.table authorityId <;> rfl

theorem consume_total (store : SQLiteActivationStore) (encodable : authorityId.Encodable) :
    ∃ flag after, store.consume authorityId = .ok (flag, after) := by
  cases row : store.rows.get authorityId with
  | none =>
      exact ⟨false, store, bind_eq_ok.mpr ⟨(), bound_of_encodable encodable, by rw [row]; rfl⟩⟩
  | some row' =>
      cases used : row'.used with
      | true =>
          exact ⟨false, store, bind_eq_ok.mpr
            ⟨(), bound_of_encodable encodable, by simp [row, used]⟩⟩
      | false =>
          exact ⟨true, store.setUsed authorityId true, bind_eq_ok.mpr
            ⟨(), bound_of_encodable encodable, by simp [row, used]⟩⟩

theorem unconsume_total (store : SQLiteActivationStore) (encodable : authorityId.Encodable) :
    ∃ after, store.unconsume authorityId = .ok after :=
  ⟨_, bind_eq_ok.mpr ⟨(), bound_of_encodable encodable, rfl⟩⟩

/-- A record with a new identifier is put. -/
theorem put_total (store : SQLiteActivationStore) {record : ActivationRecord}
    (encodable : ∀ text ∈ [record.authorityId, record.authorityDigest, record.candidateDigest,
      record.sinkId, record.nonce, record.activationCommitment], text.Encodable)
    (free : store.table record.authorityId = none) : ∃ after, store.put record = .ok after := by
  have absent : record.authorityId ∉ store.rows := by
    intro present
    obtain ⟨row, found⟩ := Dict.mem_iff_get.mp present
    obtain ⟨-, stored, taken, -⟩ := row_reads found
    cases free.symm.trans taken
  exact ⟨_, by rw [put, dif_pos encodable, if_neg absent]⟩

end SQLiteActivationStore

namespace InMemoryActivationStore

/-- A record with a new identifier is put. -/
theorem put_total {τ : Type} (store : InMemoryActivationStore τ) {record : ActivationRecord τ}
    (free : store.table record.authorityId = none) : ∃ after, store.put record = .ok after := by
  have absent : record.authorityId ∉ store.records := by
    intro present
    obtain ⟨stored, found⟩ := Dict.mem_iff_get.mp present
    simp [table, found] at free
  exact ⟨_, by rw [put, if_neg absent]⟩

end InMemoryActivationStore

namespace ActivationStore

variable {store left right after : ActivationStore} {authorityId : Str}

/-- Reading under an identifier that can be bound does not fail. -/
theorem get_total (store : ActivationStore) (encodable : authorityId.Encodable) :
    ∃ found, store.get authorityId = .ok found := by
  cases store with
  | inMemory store => exact ⟨_, rfl⟩
  | sqlite store => exact ⟨_, store.get_encodable encodable⟩

theorem isUsed_total (store : ActivationStore) (encodable : authorityId.Encodable) :
    ∃ used, store.isUsed authorityId = .ok used := by
  cases store with
  | inMemory store => exact ⟨_, rfl⟩
  | sqlite store => exact ⟨_, store.isUsed_encodable encodable⟩

theorem consume_total (store : ActivationStore) (encodable : authorityId.Encodable) :
    ∃ flag after, store.consume authorityId = .ok (flag, after) := by
  cases store with
  | inMemory store => exact ⟨_, _, rfl⟩
  | sqlite store =>
      obtain ⟨flag, after, consumed⟩ := store.consume_total encodable
      exact ⟨flag, .sqlite after, bind_eq_ok.mpr ⟨_, consumed, rfl⟩⟩

theorem unconsume_total (store : ActivationStore) (encodable : authorityId.Encodable) :
    ∃ after, store.unconsume authorityId = .ok after := by
  cases store with
  | inMemory store => exact ⟨_, rfl⟩
  | sqlite store =>
      obtain ⟨after, restored⟩ := store.unconsume_total encodable
      exact ⟨_, map_eq_ok.mpr ⟨_, restored, rfl⟩⟩

/-- A record with a new identifier is put. -/
theorem put_total (store : ActivationStore) {record : ActivationRecord}
    (encodable : ∀ text ∈ [record.authorityId, record.authorityDigest, record.candidateDigest,
      record.sinkId, record.nonce, record.activationCommitment], text.Encodable)
    (free : store.table record.authorityId = none) : ∃ after, store.put record = .ok after := by
  cases store with
  | inMemory store =>
      obtain ⟨after, stored⟩ := store.put_total free
      exact ⟨_, map_eq_ok.mpr ⟨_, stored, rfl⟩⟩
  | sqlite store =>
      obtain ⟨after, stored⟩ := store.put_total encodable free
      exact ⟨_, map_eq_ok.mpr ⟨_, stored, rfl⟩⟩

variable (same : left.table = right.table)

include same

/-- Records are read alike, up to their flags. -/
theorem get_alike (encodable : authorityId.Encodable) :
    ∃ found found', left.get authorityId = .ok found ∧ right.get authorityId = .ok found' ∧
      found.map (·.withUsed false) = found'.map (·.withUsed false) := by
  obtain ⟨found, read⟩ := left.get_total encodable
  obtain ⟨found', read'⟩ := right.get_total encodable
  exact ⟨found, found', read, read', by rw [get_ok read, get_ok read', same]⟩

theorem isUsed_alike (encodable : authorityId.Encodable) :
    left.isUsed authorityId = right.isUsed authorityId := by
  obtain ⟨used, read⟩ := left.isUsed_total encodable
  obtain ⟨used', read'⟩ := right.isUsed_total encodable
  have flags : used = true ↔ used' = true := by rw [isUsed_ok read, isUsed_ok read', same]
  rw [read, read', Bool.eq_iff_iff.mpr flags]

theorem consume_alike (encodable : authorityId.Encodable) :
    ∃ flag after after', left.consume authorityId = .ok (flag, after) ∧
      right.consume authorityId = .ok (flag, after') ∧ after.table = after'.table := by
  obtain ⟨flag, after, consumed⟩ := left.consume_total encodable
  obtain ⟨flag', after', consumed'⟩ := right.consume_total encodable
  cases flag with
  | true =>
      obtain ⟨⟨record, present, unused⟩, table, -⟩ := consume_true consumed
      rw [same] at present table
      obtain ⟨store, again⟩ := consume_unused present unused
      obtain ⟨rfl, rfl⟩ := Prod.mk.inj (Except.ok.inj (consumed'.symm.trans again))
      exact ⟨true, after, after', consumed, consumed', by rw [table, (consume_true consumed').2.1]⟩
  | false =>
      cases flag' with
      | false =>
          refine ⟨false, after, after', consumed, consumed', ?_⟩
          rw [consume_false consumed, consume_false consumed', same]
      | true =>
          obtain ⟨⟨record, present, unused⟩, -, -⟩ := consume_true consumed'
          rw [← same] at present
          obtain ⟨store, again⟩ := consume_unused present unused
          cases consumed.symm.trans again

theorem unconsume_alike (encodable : authorityId.Encodable) :
    ∃ after after', left.unconsume authorityId = .ok after ∧
      right.unconsume authorityId = .ok after' ∧ after.table = after'.table := by
  obtain ⟨after, restored⟩ := left.unconsume_total encodable
  obtain ⟨after', restored'⟩ := right.unconsume_total encodable
  exact ⟨after, after', restored, restored', by
    rw [table_unconsume restored, table_unconsume restored', same]⟩

theorem put_alike {record : ActivationRecord}
    (encodable : ∀ text ∈ [record.authorityId, record.authorityDigest, record.candidateDigest,
      record.sinkId, record.nonce, record.activationCommitment], text.Encodable)
    (free : left.table record.authorityId = none) :
    ∃ after after', left.put record = .ok after ∧ right.put record = .ok after' ∧
      after.table = after'.table ∧
      after.table = Function.update left.table record.authorityId (some (record.withUsed false)) := by
  obtain ⟨after, stored⟩ := left.put_total encodable free
  obtain ⟨after', stored'⟩ := right.put_total encodable (same ▸ free)
  refine ⟨after, after', stored, stored', ?_, (table_put stored).2⟩
  rw [(table_put stored).2, (table_put stored').2, same]

end ActivationStore

/-! ### Evidence stores -/

namespace SQLiteEvidenceStore

/-- Reading under an identifier that can be bound does not fail. -/
theorem get_encodable (store : SQLiteEvidenceStore) {evidenceId : Str}
    (encodable : evidenceId.Encodable) : store.get evidenceId = .ok (store.table evidenceId) := by
  cases present : store.table evidenceId with
  | some record => exact get_some present
  | none =>
      have bound : bindText [evidenceId] = .ok () := bindText_ok.mpr (by simpa using encodable)
      cases row : store.rows.find? (·.evidenceId = evidenceId) with
      | none => exact bind_eq_ok.mpr ⟨(), bound, by rw [row]; rfl⟩
      | some row' =>
          obtain ⟨-, time, text⟩ := store.written row' (List.mem_of_find?_eq_some row)
          simp [table, row, EvidenceRow.record?, text] at present

/-- Evidence with a new identifier is committed if it has a digest, and a counter that
SQLite has an integer for. -/
theorem commit_free [Hashlib] {τ : Type} [Timestamp τ] (store : SQLiteEvidenceStore)
    {fields : EvidenceFields τ} {digest : Str} (digested : fields.bodyDigest store.tail = .ok digest)
    (free : store.table fields.evidenceId = none)
    (fits : bindInteger fields.monotonicCounter = .ok ()) :
    ∃ after, store.commit fields = .ok (⟨fields, store.tail, digest⟩, after) := by
  obtain ⟨instant, inUtc⟩ := EvidenceFields.bodyDigest_instant digested
  have absent : fields.evidenceId ∉ store.rows.map (·.evidenceId) := by
    intro present
    obtain ⟨row, member, named⟩ := List.mem_map.mp present
    have found : (store.rows.find? (·.evidenceId = fields.evidenceId)).isSome := by
      rw [List.find?_isSome]
      exact ⟨row, member, by simpa using named⟩
    obtain ⟨row', found⟩ := Option.isSome_iff_exists.mp found
    obtain ⟨-, written, text⟩ := store.written row' (List.mem_of_find?_eq_some found)
    simp [table, found, EvidenceRow.record?, text] at free
  obtain ⟨after, inserted⟩ :
      ∃ after, store.insert ⟨fields, store.tail, digest⟩ instant = .ok after := by
    unfold insert
    exact ⟨_, (dif_pos (EvidenceFields.encodable digested)).trans (dif_pos absent)⟩
  exact ⟨after, bind_eq_ok.mpr ⟨digest, digested, bind_eq_ok.mpr ⟨instant, inUtc,
    bind_eq_ok.mpr ⟨(), fits, bind_eq_ok.mpr ⟨after, inserted, rfl⟩⟩⟩⟩⟩

/-- A commit that succeeds has bound its counter. -/
theorem commit_fits [Hashlib] {τ : Type} [Timestamp τ] {store after : SQLiteEvidenceStore}
    {fields : EvidenceFields τ} {record : EvidenceRecord τ} (committed : store.commit fields = .ok (record, after)) :
    bindInteger fields.monotonicCounter = .ok () := by
  obtain ⟨_, -, rest⟩ := bind_eq_ok.mp committed
  obtain ⟨_, -, rest⟩ := bind_eq_ok.mp rest
  obtain ⟨_, bound, -⟩ := bind_eq_ok.mp rest
  exact bound

end SQLiteEvidenceStore

namespace EvidenceStore

/-- Reading under an identifier that can be bound does not fail. -/
theorem get_encodable (store : EvidenceStore) {evidenceId : Str} (encodable : evidenceId.Encodable) :
    store.get evidenceId = .ok (store.table evidenceId) := by
  cases store with
  | inMemory store => rfl
  | sqlite store => exact store.get_encodable encodable

variable [Hashlib]

/-- Evidence with a new identifier is committed if it has a digest, and a counter that
SQLite has an integer for. -/
theorem commit_utc (store : EvidenceStore) {fields : EvidenceFields} {time : DateTime}
    {digest : Str} (digested : fields.bodyDigest store.tail = .ok digest)
    (utc : fields.committedAt = .utc time) (free : store.table fields.evidenceId = none)
    (fits : bindInteger fields.monotonicCounter = .ok ()) :
    ∃ after, store.commit fields = .ok (⟨fields, store.tail, digest⟩, after) ∧
      after.tail = digest ∧ after.table =
        Function.update store.table fields.evidenceId (some ⟨fields, store.tail, digest⟩) := by
  cases store with
  | inMemory store =>
      have committed : store.commit fields = .ok (⟨fields, store.tail, digest⟩,
          ⟨store.records.set fields.evidenceId ⟨fields, store.tail, digest⟩, digest⟩) :=
        bind_eq_ok.mpr ⟨digest, digested, rfl⟩
      refine ⟨_, bind_eq_ok.mpr ⟨_, committed, rfl⟩, rfl, ?_⟩
      exact (InMemoryEvidenceStore.commit_ok committed).2.2.2
  | sqlite store =>
      obtain ⟨after, committed⟩ := store.commit_free digested free fits
      obtain ⟨-, -, tail, -, instant, inUtc, table⟩ := SQLiteEvidenceStore.commit_ok committed
      refine ⟨.sqlite after, bind_eq_ok.mpr ⟨_, committed, rfl⟩, tail, ?_⟩
      obtain rfl : time = instant := by
        rw [Timestamp.toUtc_awareDateTime, utc, AwareDateTime.toUtc_utc] at inUtc
        exact Except.ok.inj inUtc
      have record : (⟨fields, store.tail, digest⟩ : EvidenceRecord).dated (AwareDateTime.utc time) =
          ⟨fields, store.tail, digest⟩ := by rw [← utc]; rfl
      rw [record] at table
      exact table

/-- Evidence without a digest is committed nowhere. -/
theorem commit_undigested (store : EvidenceStore) {fields : EvidenceFields} {reason : PyError}
    (undigested : fields.bodyDigest store.tail = .error reason) :
    store.commit fields = .error reason := by
  cases store with
  | inMemory store =>
      have digest : fields.bodyDigest store.tail = .error reason := undigested
      simp [commit, InMemoryEvidenceStore.commit, digest, bind, Except.bind]
  | sqlite store =>
      have digest : fields.bodyDigest store.tail = .error reason := undigested
      simp [commit, SQLiteEvidenceStore.commit, digest, bind, Except.bind]

end EvidenceStore
end NetworkFinality
