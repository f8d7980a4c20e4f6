import NetworkFinality.Refinement.EvidenceTable

/-!
# The evidence chain

Any sequence of commits, reads and re-openings leaves one chain: the records the
commits returned, in the order they returned them. `Chained` says how a store and
that chain belong together, and each operation keeps it.
-/

namespace NetworkFinality

open Python Semantics

/-- One use of an evidence store. -/
inductive EvidenceOp where
  | commit (fields : EvidenceFields)
  | get (evidenceId : Str)
  | reopen

/-- What a commit was asked to record. -/
def EvidenceOp.fields? : EvidenceOp → Option EvidenceFields
  | .commit fields => some fields
  | _ => none

namespace EvidenceStore

variable [Hashlib]

/-- One operation, and the record it returned when it committed one. -/
def step (store : EvidenceStore) : EvidenceOp → EvidenceStore × Option EvidenceRecord
  | .commit fields =>
      match store.commit fields with
      | .ok (record, after) => (after, some record)
      | .error _ => (store, none)
  | .get _ => (store, none)
  | .reopen => (store.reopen, none)

/-- A sequence of operations, and the records its commits returned. -/
def run (store : EvidenceStore) : List EvidenceOp → EvidenceStore × List EvidenceRecord
  | [] => (store, [])
  | op :: rest =>
      let (next, returned) := store.step op
      let (final, records) := next.run rest
      (final, returned.toList ++ records)

/-- The records are linked by their digests up to the tail of the store. -/
structure Sealed (store : EvidenceStore) (records : List EvidenceRecord) : Prop where
  linked : Linked EvidenceRecord.previousDigest EvidenceRecord.digest genesis records
  tail : store.tail = tailDigest EvidenceRecord.digest genesis records
  digests : ∀ record ∈ records,
    record.toEvidenceFields.bodyDigest record.previousDigest = .ok record.digest

theorem Sealed.empty {store : EvidenceStore} (tail : store.tail = genesis) : Sealed store [] where
  linked := .empty
  tail := tail
  digests := by simp

/-- A commit extends the linked records, whatever its identifier is. -/
theorem Sealed.commit {store after : EvidenceStore} {records : List EvidenceRecord}
    {fields : EvidenceFields} {record : EvidenceRecord} (chain : Sealed store records)
    (committed : Committed store fields record after) : Sealed after (records ++ [record]) := by
  have names : record.previousDigest = store.tail := by rw [committed.returned]
  have asked : record.toEvidenceFields = fields := by rw [committed.returned]
  refine ⟨?_, ?_, ?_⟩
  · exact linked_append.mpr ⟨chain.linked, names.trans chain.tail⟩
  · rw [committed.tail, tailDigest_append]
  · intro other member
    rcases List.mem_append.mp member with old | new
    · exact chain.digests other old
    · rw [List.mem_singleton.mp new, asked, names, committed.digest]

/-- The records form the chain that the store holds and continues. -/
structure Chained (store : EvidenceStore) (records : List EvidenceRecord) : Prop where
  linked : Linked EvidenceRecord.previousDigest EvidenceRecord.digest genesis records
  tail : store.tail = tailDigest EvidenceRecord.digest genesis records
  digests : ∀ record ∈ records,
    record.toEvidenceFields.bodyDigest record.previousDigest = .ok record.digest
  stored : ∀ record ∈ records, ∃ stored,
    store.table record.evidenceId = some stored ∧ stored.SameInstant record
  complete : ∀ evidenceId stored, store.table evidenceId = some stored →
    ∃ record ∈ records, record.evidenceId = evidenceId ∧ stored.SameInstant record

theorem Chained.sealed {store : EvidenceStore} {records : List EvidenceRecord}
    (chained : Chained store records) : Sealed store records :=
  ⟨chained.linked, chained.tail, chained.digests⟩

theorem Chained.empty {store : EvidenceStore} (tail : store.tail = genesis)
    (table : ∀ evidenceId, store.table evidenceId = none) : Chained store [] where
  linked := .empty
  tail := tail
  digests := by simp
  stored := by simp
  complete := by simp [table]

/-- A commit under an identifier that no record has extends the chain. -/
theorem Chained.commit {store after : EvidenceStore} {records : List EvidenceRecord}
    {fields : EvidenceFields} {record : EvidenceRecord} (chained : Chained store records)
    (fresh : ∀ earlier ∈ records, earlier.evidenceId ≠ fields.evidenceId)
    (committed : Committed store fields record after) :
    Chained after (records ++ [record]) := by
  obtain ⟨stored, same, table⟩ := committed.table
  have named : record.evidenceId = fields.evidenceId := by rw [committed.returned]
  obtain ⟨linked, tail, digests⟩ := chained.sealed.commit committed
  refine ⟨linked, tail, digests, ?_, ?_⟩
  · intro other member
    rw [table]
    rcases List.mem_append.mp member with old | new
    · rw [Function.update_of_ne (fresh other old)]
      exact chained.stored other old
    · rw [List.mem_singleton.mp new, named, Function.update_self]
      exact ⟨stored, rfl, same⟩
  · intro evidenceId found present
    rw [table] at present
    by_cases this : evidenceId = fields.evidenceId
    · rw [this, Function.update_self] at present
      obtain rfl := Option.some.inj present
      exact ⟨record, by simp, by rw [named, this], same⟩
    · rw [Function.update_of_ne this] at present
      obtain ⟨earlier, member, agrees⟩ := chained.complete evidenceId found present
      exact ⟨earlier, List.mem_append_left _ member, agrees⟩

omit [Hashlib] in
@[simp] theorem table_reopen (store : EvidenceStore) : store.reopen.table = store.table := by
  cases store <;> rfl

omit [Hashlib] in
@[simp] theorem tail_reopen (store : EvidenceStore) : store.reopen.tail = store.tail := by
  cases store <;> rfl

theorem Sealed.reopen {store : EvidenceStore} {records : List EvidenceRecord}
    (chain : Sealed store records) : Sealed store.reopen records :=
  ⟨chain.linked, by rw [tail_reopen, chain.tail], chain.digests⟩

/-- A run extends the linked records by those it returns. -/
theorem Sealed.run {store : EvidenceStore} {records : List EvidenceRecord} {ops : List EvidenceOp}
    (chain : Sealed store records) :
    Sealed (store.run ops).1 (records ++ (store.run ops).2) := by
  induction ops generalizing store records with
  | nil => simpa [EvidenceStore.run] using chain
  | cons op rest inductionHypothesis =>
      cases op with
      | get evidenceId => exact inductionHypothesis chain
      | reopen => exact inductionHypothesis chain.reopen
      | commit fields =>
          cases outcome : store.commit fields with
          | error reason =>
              simp only [EvidenceStore.run, step, outcome, Option.toList_none, List.nil_append]
              exact inductionHypothesis chain
          | ok result =>
              simp only [EvidenceStore.run, step, outcome, Option.toList_some]
              rw [← List.append_assoc]
              exact inductionHypothesis (chain.commit (commit_ok outcome))

theorem Chained.reopen {store : EvidenceStore} {records : List EvidenceRecord}
    (chained : Chained store records) : Chained store.reopen records where
  linked := chained.linked
  tail := chained.sealed.reopen.tail
  digests := chained.digests
  stored := by simpa using chained.stored
  complete := by simpa using chained.complete

/-- A run of operations on identifiers that differ from each other and from those
of the chain extends the chain by the records it returns. -/
theorem Chained.run {store : EvidenceStore} {records : List EvidenceRecord} {ops : List EvidenceOp}
    (chained : Chained store records)
    (distinct : ((ops.filterMap EvidenceOp.fields?).map (·.evidenceId)).Nodup)
    (fresh : ∀ earlier ∈ records, ∀ fields ∈ ops.filterMap EvidenceOp.fields?,
      earlier.evidenceId ≠ fields.evidenceId) :
    Chained (store.run ops).1 (records ++ (store.run ops).2) := by
  induction ops generalizing store records with
  | nil => simpa [EvidenceStore.run] using chained
  | cons op rest inductionHypothesis =>
      cases op with
      | get evidenceId => exact inductionHypothesis chained distinct fresh
      | reopen => exact inductionHypothesis chained.reopen distinct fresh
      | commit fields =>
          obtain ⟨unused, distinct⟩ := List.nodup_cons.mp distinct
          simp only [List.filterMap_cons, EvidenceOp.fields?, List.mem_cons, forall_eq_or_imp]
            at fresh
          cases outcome : store.commit fields with
          | error reason =>
              simp only [EvidenceStore.run, step, outcome, Option.toList_none, List.nil_append]
              exact inductionHypothesis chained distinct fun earlier member =>
                (fresh earlier member).2
          | ok result =>
              have committed := commit_ok outcome
              simp only [EvidenceStore.run, step, outcome, Option.toList_some]
              rw [← List.append_assoc]
              apply inductionHypothesis (chained.commit (fun earlier member =>
                (fresh earlier member).1) committed) distinct
              intro earlier member later asked
              rcases List.mem_append.mp member with old | new
              · exact (fresh earlier old).2 later asked
              · intro same
                rw [List.mem_singleton.mp new, committed.returned] at same
                exact unused (List.mem_map.mpr ⟨later, asked, same.symm⟩)

/-- The returned records hold what the commits were asked to record, in order. -/
theorem run_fields (store : EvidenceStore) (ops : List EvidenceOp) :
    ((store.run ops).2.map (·.toEvidenceFields)).Sublist (ops.filterMap EvidenceOp.fields?) := by
  induction ops generalizing store with
  | nil => exact .slnil
  | cons op rest inductionHypothesis =>
      cases op with
      | get evidenceId => exact inductionHypothesis store
      | reopen => exact inductionHypothesis store.reopen
      | commit fields =>
          cases outcome : store.commit fields with
          | error reason =>
              simp only [EvidenceStore.run, step, outcome]
              exact (inductionHypothesis store).cons fields
          | ok result =>
              have asked : result.1.toEvidenceFields = fields := by
                rw [(commit_ok outcome).returned]
              simp only [EvidenceStore.run, step, outcome, Option.toList_some, List.singleton_append,
                List.map_cons, asked]
              exact (inductionHypothesis result.2).cons_cons fields

end EvidenceStore

/-- Commits with distinct identifiers, in any order and between any reads and
re-openings of either store, form one chain from the genesis marker. Each record
reads back with the fields it was committed with and a digest that recomputes. -/
theorem evidence_chain_wellFormed [Hashlib] (store : EvidenceStore)
    (empty : store = .inMemory .empty ∨ store = .sqlite .empty) (ops : List EvidenceOp)
    (distinct : ((ops.filterMap EvidenceOp.fields?).map (·.evidenceId)).Nodup) :
    (∀ first, (store.run ops).2.head? = some first → first.previousDigest = genesis) ∧
      (∀ (position : Nat) record next, (store.run ops).2[position]? = some record →
        (store.run ops).2[position + 1]? = some next → next.previousDigest = record.digest) ∧
      ((store.run ops).2.map (·.evidenceId)).Nodup ∧
      ((store.run ops).2.map (·.toEvidenceFields)).Sublist (ops.filterMap EvidenceOp.fields?) ∧
      (∀ record ∈ (store.run ops).2, ∃ stored,
        (store.run ops).1.get record.evidenceId = .ok (some stored) ∧
        stored.SameInstant record ∧
        stored.toEvidenceFields.bodyDigest stored.previousDigest = .ok stored.digest) ∧
      (∀ evidenceId stored, (store.run ops).1.get evidenceId = .ok (some stored) →
        ∃ record ∈ (store.run ops).2, record.evidenceId = evidenceId ∧
          stored.SameInstant record) := by
  have start : EvidenceStore.Chained store [] := by
    apply EvidenceStore.Chained.empty
    · rcases empty with rfl | rfl <;> rfl
    · rcases empty with rfl | rfl <;> intro evidenceId <;> rfl
  have chained := start.run distinct (by simp)
  rw [List.nil_append] at chained
  have asked := EvidenceStore.run_fields store ops
  refine ⟨fun _ => chained.linked.first, fun _ _ _ => chained.linked.successor, ?_, asked, ?_, ?_⟩
  · have sublist := (asked.map (·.evidenceId)).nodup distinct
    rwa [List.map_map] at sublist
  · intro record member
    obtain ⟨stored, present, same⟩ := chained.stored record member
    exact ⟨stored, EvidenceStore.get_some present, same,
      same.recomputes (chained.digests record member)⟩
  · intro evidenceId stored read
    exact chained.complete evidenceId stored (EvidenceStore.get_eq read).symm

/-- Two commits around a re-opening, the first at an offset of one hour. -/
def twoCommits : List EvidenceOp :=
  [.commit {
      evidenceId := "evidence-000000000001"
      candidateActId := "net-39f8820b-reference"
      decisionId := "nvd-000000000001"
      decision := "ALLOW"
      committedAt := ⟨⟨63900000003600000, by decide⟩, 3600000000, by decide⟩
      protectedStateReference := "net-ped-state-7801"
      monotonicCounter := 184992 },
    .reopen,
    .commit {
      evidenceId := "evidence-000000000002"
      candidateActId := "net-39f8820b-reference"
      decisionId := "nvd-000000000002"
      decision := "DENY"
      committedAt := .utc ⟨63900000000000000, by decide⟩
      protectedStateReference := "net-ped-state-7801"
      monotonicCounter := 184993 },
    .get "evidence-000000000001"]

theorem evidence_chain_twoCommits :
    (@EvidenceStore.run .checksum (.sqlite .empty) twoCommits).2.length = 2 ∧
      ∀ first, (@EvidenceStore.run .checksum (.sqlite .empty) twoCommits).2.head? = some first →
        first.previousDigest = genesis := by
  have wellFormed :=
    @evidence_chain_wellFormed .checksum (.sqlite .empty) (.inr rfl) twoCommits (by decide)
  exact ⟨by decide +kernel, wellFormed.1⟩

end NetworkFinality
