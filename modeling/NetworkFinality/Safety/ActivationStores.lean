import NetworkFinality.Semantics.Lockstep
import NetworkFinality.Model.Statements
import NetworkFinality.Refinement.SameTables

/-!
# The two activation stores call by call

Both stores are asked the same calls from the start. They answer alike, and as a table of
single-use records answers, exactly as long as no record is read after its consumption, new
records have a UTC expiry and bindable texts, and so do the identifiers asked for. The
in-memory store returns a record as it was put, with the flag it had then; the SQLite store
reads the flag from the row.
-/

namespace NetworkFinality

open Python Semantics

/-- The same record in all fields, with the expiry as an instant. -/
def ActivationRecord.SameInstant (record : ActivationRecord AwareDateTime)
    (stored : ActivationRecord) : Prop :=
  ∃ instant, record.expiresAt.toUtc = .ok instant ∧ stored = record.expiring instant

/-- The same answer, with the expiry of a record as an instant. -/
inductive ActivationAnswer.Same : ActivationAnswer AwareDateTime → ActivationAnswer DateTime → Prop
  where
  | nothing : Same .nothing .nothing
  | record {found : Option (ActivationRecord AwareDateTime)} {found' : Option ActivationRecord}
      (same : Option.Rel ActivationRecord.SameInstant found found') :
      Same (.record found) (.record found')
  | flag {value : Bool} : Same (.flag value) (.flag value)

/-- One outcome: both calls reject, or both return the same. -/
abbrev SameActivation : Except PyError (ActivationAnswer AwareDateTime) →
    Except PyError (ActivationAnswer DateTime) → Prop := SameOutcome ActivationAnswer.Same

/-- A table of single-use records: a put rejects exactly the identifiers put before, and then
changes nothing, a consumption succeeds exactly on a record that exists unused, and the flag
of a record is the one that `is_used` returns. -/
structure SingleUse {τ S : Type}
    (store : Component ActivationCall (Except PyError (ActivationAnswer τ)) S) (start : S)
    (calls : List ActivationCall) : Prop where
  rejects : ∀ earlier record unused later, calls = earlier ++ .put record unused :: later →
    ((∃ reason, (store (.put record unused) (store.after start earlier)).1 = .error reason) ↔
      ∃ other unused', ActivationCall.put other unused' ∈ earlier ∧
        other.authorityId = record.authorityId)
  unchanged : ∀ earlier record unused later reason,
    calls = earlier ++ .put record unused :: later →
    (store (.put record unused) (store.after start earlier)).1 = .error reason →
    (store (.put record unused) (store.after start earlier)).2 = store.after start earlier
  consumes : ∀ earlier authorityId later, calls = earlier ++ .consume authorityId :: later →
    ((store (.consume authorityId) (store.after start earlier)).1 = .ok (.flag true) ↔
      (∃ record, (store (.get authorityId) (store.after start earlier)).1 =
          .ok (.record (some record))) ∧
        (store (.isUsed authorityId) (store.after start earlier)).1 = .ok (.flag false))
  flagged : ∀ earlier authorityId later record, calls = earlier ++ .get authorityId :: later →
    (store (.get authorityId) (store.after start earlier)).1 = .ok (.record (some record)) →
    (store (.isUsed authorityId) (store.after start earlier)).1 = .ok (.flag record.used)

/-- What the two stores are to be for a sequence of calls. -/
structure EqualActivation (calls : List ActivationCall) : Prop where
  alike : List.Forall₂ SameActivation (Component.answers InMemoryActivationStore.call .empty calls)
    (Component.answers SQLiteActivationStore.call .empty calls)
  inMemory : SingleUse InMemoryActivationStore.call .empty calls
  sqlite : SingleUse SQLiteActivationStore.call .empty calls

/-- The texts of a record that SQLite binds. -/
def ActivationRecord.texts {τ : Type} (record : ActivationRecord τ) : List Str :=
  [record.authorityId, record.authorityDigest, record.candidateDigest, record.sinkId,
    record.nonce, record.activationCommitment]

/-- A record that is put repeats an identifier, or has texts that can be bound and an expiry
that has a UTC datetime. Identifiers can be bound, and a record that is read is unused. -/
def ActivationCall.Clean : ActivationCall → InMemoryActivationStore AwareDateTime → Prop
  | .put record _, store => record.authorityId ∈ store.records ∨
      ((∃ instant, record.expiresAt.toUtc = .ok instant) ∧ ∀ text ∈ record.texts, text.Encodable)
  | .get authorityId, store => authorityId.Encodable ∧ store.isUsed authorityId = false
  | .consume authorityId, _ => authorityId.Encodable
  | .unconsume authorityId, _ => authorityId.Encodable
  | .isUsed authorityId, _ => authorityId.Encodable

/-! ### Records at any offset -/

namespace ActivationRecord

variable {record : ActivationRecord AwareDateTime} {stored : ActivationRecord}

theorem SameInstant.used (same : record.SameInstant stored) : stored.used = record.used := by
  obtain ⟨instant, -, rfl⟩ := same
  rfl

theorem SameInstant.withUsed (same : record.SameInstant stored) (used : Bool) :
    (record.withUsed used).SameInstant (stored.withUsed used) := by
  obtain ⟨instant, inUtc, rfl⟩ := same
  exact ⟨instant, inUtc, rfl⟩

/-- Flags are set alike in tables of the same records. -/
theorem tableRel_setUsed {left : ActivationTable AwareDateTime} {right : ActivationTable}
    (tables : TableRel SameInstant left right) (authorityId : Str) (used : Bool) :
    TableRel SameInstant (left.setUsed authorityId used) (right.setUsed authorityId used) := by
  intro other
  have related := tables other
  simp only [ActivationTable.setUsed]
  generalize left other = found at related ⊢
  generalize right other = found' at related ⊢
  split
  · cases related with
    | none => exact .none
    | some same => exact .some (same.withUsed used)
  · exact related

end ActivationRecord

/-- A record is put by SQLite if its expiry has a UTC datetime, its texts can be bound and its
identifier is new. -/
theorem SQLiteActivationStore.putInUtc_total (store : SQLiteActivationStore)
    {record : ActivationRecord AwareDateTime}
    (instant : ∃ instant, record.expiresAt.toUtc = .ok instant)
    (encodable : ∀ text ∈ record.texts, text.Encodable)
    (free : store.table record.authorityId = none) :
    ∃ after, store.putInUtc record = .ok after := by
  obtain ⟨instant, inUtc⟩ := instant
  obtain ⟨after, stored⟩ := @put_total store (record.expiring instant) encodable free
  exact ⟨after, bind_eq_ok.mpr ⟨instant, inUtc, stored⟩⟩

theorem SQLiteActivationStore.putInUtc_ok {store after : SQLiteActivationStore}
    {record : ActivationRecord AwareDateTime} (stored : store.putInUtc record = .ok after) :
    ∃ instant, record.expiresAt.toUtc = .ok instant ∧ (∀ text ∈ record.texts, text.Encodable) ∧
      store.table record.authorityId = none ∧
      after.table = Function.update store.table record.authorityId
        (some ((record.expiring instant).withUsed false)) := by
  obtain ⟨instant, inUtc, stored⟩ := bind_eq_ok.mp stored
  obtain ⟨free, table⟩ := table_put stored
  exact ⟨instant, inUtc, put_encodable stored, free, table⟩

/-! ### One call -/

/-- The stores hold one table, and the in-memory store has kept its records as they were
put. -/
structure SameActivationTable (store : InMemoryActivationStore AwareDateTime)
    (store' : SQLiteActivationStore) : Prop where
  tables : TableRel ActivationRecord.SameInstant store.table store'.table
  unused : ∀ authorityId record, store.get authorityId = some record → record.used = false

namespace SameActivationTable

variable {store : InMemoryActivationStore AwareDateTime} {store' : SQLiteActivationStore}
  {authorityId : Str}

theorem empty : SameActivationTable .empty .empty where
  tables := fun _ => .none
  unused := by simp [InMemoryActivationStore.get, InMemoryActivationStore.empty]

theorem isUsed_eq (same : SameActivationTable store store') (authorityId : Str) :
    store.isUsed authorityId = (store'.table authorityId).any (·.used) := by
  have related := same.tables authorityId
  rw [InMemoryActivationStore.isUsed_eq]
  generalize store.table authorityId = found at related ⊢
  generalize store'.table authorityId = found' at related ⊢
  cases related with
  | none => rfl
  | some agrees => exact agrees.used.symm

/-- Both stores take a new record. -/
theorem put_new (same : SameActivationTable store store')
    {record : ActivationRecord AwareDateTime} (unused : record.used = false)
    (new : record.authorityId ∉ store.records)
    (instant : ∃ instant, record.expiresAt.toUtc = .ok instant)
    (encodable : ∀ text ∈ record.texts, text.Encodable) :
    ∃ after after', store.put record = .ok after ∧ store'.putInUtc record = .ok after' ∧
      SameActivationTable after after' := by
  have free := InMemoryActivationStore.table_eq_none.mpr new
  obtain ⟨after, stored⟩ := store.put_total free
  obtain ⟨after', stored'⟩ :=
    store'.putInUtc_total instant encodable (same.tables.eq_none_iff.mp free)
  obtain ⟨time, inUtc, -, -, table'⟩ := SQLiteActivationStore.putInUtc_ok stored'
  refine ⟨after, after', stored, stored', ?_, ?_⟩
  · rw [(InMemoryActivationStore.table_put stored).2, table']
    exact same.tables.update ⟨time, inUtc, rfl⟩
  · intro other found present
    rw [InMemoryActivationStore.put, if_neg new] at stored
    cases stored
    by_cases named : other = record.authorityId
    · subst named
      rw [InMemoryActivationStore.get, Dict.get_set_self] at present
      obtain rfl := Option.some.inj present
      exact unused
    · rw [InMemoryActivationStore.get, Dict.get_set_ne _ _ named] at present
      exact same.unused other found present

/-- Both stores reject a repeated identifier. -/
theorem put_repeated (same : SameActivationTable store store')
    {record : ActivationRecord AwareDateTime} (known : record.authorityId ∈ store.records) :
    ∃ reason reason', store.put record = .error reason ∧
      store'.putInUtc record = .error reason' := by
  have rejected : store.put record = .error .valueError := by
    rw [InMemoryActivationStore.put, if_pos known]
  cases outcome : store'.putInUtc record with
  | error reason' => exact ⟨_, reason', rejected, rfl⟩
  | ok after =>
      obtain ⟨_, -, -, free, -⟩ := SQLiteActivationStore.putInUtc_ok outcome
      have new := InMemoryActivationStore.table_eq_none.mp (same.tables.eq_none_iff.mpr free)
      exact absurd known new

/-- Both stores consume alike. -/
theorem consume_alike (same : SameActivationTable store store')
    (encodable : authorityId.Encodable) :
    ∃ flag after after', store.consume authorityId = (flag, after) ∧
      store'.consume authorityId = .ok (flag, after') ∧ SameActivationTable after after' := by
  obtain ⟨flag', after', consumed'⟩ := store'.consume_total encodable
  rcases consumed : store.consume authorityId with ⟨flag, after⟩
  have records : (store.consume authorityId).2.records = store.records :=
    InMemoryActivationStore.consume_records
  rw [consumed] at records
  have unused : ∀ other record, after.get other = some record → record.used = false := by
    intro other record present
    rw [InMemoryActivationStore.get, records] at present
    exact same.unused other record present
  refine ⟨flag, after, after', rfl, ?_⟩
  cases flag with
  | true =>
      obtain ⟨⟨record, present, free⟩, table, -⟩ := InMemoryActivationStore.consume_true consumed
      obtain ⟨stored, present', agrees⟩ := same.tables.found present
      obtain ⟨after'', again⟩ :=
        SQLiteActivationStore.consume_unused present' (agrees.used.trans free)
      obtain ⟨rfl, rfl⟩ := Prod.mk.inj (Except.ok.inj (consumed'.symm.trans again))
      refine ⟨consumed', ?_, unused⟩
      rw [table, (SQLiteActivationStore.consume_true consumed').2.1]
      exact ActivationRecord.tableRel_setUsed same.tables authorityId true
  | false =>
      obtain rfl := InMemoryActivationStore.consume_false consumed
      cases flag' with
      | false =>
          obtain rfl := SQLiteActivationStore.consume_false consumed'
          exact ⟨consumed', same⟩
      | true =>
          -- SQLite has found an unused record, so the in-memory store finds it as well.
          obtain ⟨⟨stored, present', free⟩, -, -⟩ :=
            SQLiteActivationStore.consume_true consumed'
          obtain ⟨record, present, agrees⟩ := same.tables.found' present'
          obtain ⟨after'', again⟩ :=
            InMemoryActivationStore.consume_unused present (agrees.used.symm.trans free)
          cases consumed.symm.trans again

theorem unconsume_alike (same : SameActivationTable store store')
    (encodable : authorityId.Encodable) :
    ∃ after', store'.unconsume authorityId = .ok after' ∧
      SameActivationTable (store.unconsume authorityId) after' := by
  obtain ⟨after', restored⟩ := store'.unconsume_total encodable
  refine ⟨after', restored, ?_, same.unused⟩
  rw [InMemoryActivationStore.table_unconsume, SQLiteActivationStore.table_unconsume restored]
  exact ActivationRecord.tableRel_setUsed same.tables authorityId false

/-- The same record is read exactly if it is unused: the in-memory store returns it as it was
put. -/
theorem get_iff (same : SameActivationTable store store') :
    Option.Rel ActivationRecord.SameInstant (store.get authorityId) (store'.table authorityId) ↔
      store.isUsed authorityId = false := by
  have related := same.tables authorityId
  cases present : store.get authorityId with
  | none =>
      have absent : store.table authorityId = none := congrArg (Option.map _) present
      rw [InMemoryActivationStore.isUsed_eq, absent, same.tables.eq_none_iff.mp absent]
      exact ⟨fun _ => rfl, fun _ => .none⟩
  | some record =>
      have unused := same.unused authorityId record present
      have held : store.table authorityId = some (record.withUsed (store.isUsed authorityId)) :=
        congrArg (Option.map _) present
      obtain ⟨stored, present', agrees⟩ := same.tables.found held
      rw [present', Option.rel_some_some]
      constructor
      · intro read
        rw [← unused, ← read.used, agrees.used]
        rfl
      · intro free
        rw [free, ← unused] at agrees
        exact agrees

theorem put_alike_iff (same : SameActivationTable store store')
    {record : ActivationRecord AwareDateTime} (unused : record.used = false) :
    SameActivation (InMemoryActivationStore.call (.put record unused) store).1
        (SQLiteActivationStore.call (.put record unused) store').1 ↔
      ActivationCall.Clean (.put record unused) store := by
  rw [InMemoryActivationStore.call, SQLiteActivationStore.call_put]
  by_cases known : record.authorityId ∈ store.records
  · obtain ⟨reason, reason', rejected, rejected'⟩ := same.put_repeated known
    rw [rejected, rejected']
    exact ⟨fun _ => .inl known, fun _ => .error⟩
  · constructor
    · intro alike
      obtain ⟨after, stored⟩ := store.put_total (InMemoryActivationStore.table_eq_none.mpr known)
      rw [stored] at alike
      obtain ⟨answer, returned, -⟩ := alike.returned
      obtain ⟨after', stored', -⟩ := map_eq_ok.mp (settle_returned returned)
      obtain ⟨instant, inUtc, encodable, -⟩ := SQLiteActivationStore.putInUtc_ok stored'
      exact .inr ⟨⟨instant, inUtc⟩, encodable⟩
    · intro clean
      obtain ⟨instant, encodable⟩ := clean.resolve_left known
      obtain ⟨after, after', stored, stored', -⟩ := same.put_new unused known instant encodable
      rw [stored, stored']
      exact .ok .nothing

theorem get_alike_iff (same : SameActivationTable store store') (authorityId : Str) :
    SameActivation (InMemoryActivationStore.call (.get authorityId) store).1
        (SQLiteActivationStore.call (.get authorityId) store').1 ↔
      ActivationCall.Clean (.get authorityId) store := by
  constructor
  · intro alike
    obtain ⟨answer, returned, agrees⟩ := alike.returned
    obtain ⟨found, read, rfl⟩ := map_eq_ok.mp returned
    have encodable := SQLiteActivationStore.encodable_of_bound read
    rw [SQLiteActivationStore.get_eq read] at agrees
    cases agrees with
    | record agrees => exact ⟨encodable, same.get_iff.mp agrees⟩
  · rintro ⟨encodable, unused⟩
    rw [InMemoryActivationStore.call, SQLiteActivationStore.call, store'.get_encodable encodable]
    exact .ok (.record (same.get_iff.mpr unused))

theorem consume_alike_iff (same : SameActivationTable store store') (authorityId : Str) :
    SameActivation (InMemoryActivationStore.call (.consume authorityId) store).1
        (SQLiteActivationStore.call (.consume authorityId) store').1 ↔
      ActivationCall.Clean (.consume authorityId) store := by
  rw [SQLiteActivationStore.call_consume]
  constructor
  · intro alike
    obtain ⟨answer, returned, -⟩ := alike.returned
    obtain ⟨result, ran, -⟩ := map_eq_ok.mp (settle_returned returned)
    exact SQLiteActivationStore.encodable_of_bound ran
  · intro encodable
    obtain ⟨flag, after, after', consumed, consumed', -⟩ := same.consume_alike encodable
    rw [InMemoryActivationStore.call, consumed, consumed']
    exact .ok .flag

theorem unconsume_alike_iff (same : SameActivationTable store store') (authorityId : Str) :
    SameActivation (InMemoryActivationStore.call (.unconsume authorityId) store).1
        (SQLiteActivationStore.call (.unconsume authorityId) store').1 ↔
      ActivationCall.Clean (.unconsume authorityId) store := by
  rw [SQLiteActivationStore.call_unconsume]
  constructor
  · intro alike
    obtain ⟨answer, returned, -⟩ := alike.returned
    obtain ⟨result, ran, -⟩ := map_eq_ok.mp (settle_returned returned)
    exact SQLiteActivationStore.encodable_of_bound ran
  · intro encodable
    obtain ⟨after', restored, -⟩ := same.unconsume_alike encodable
    rw [restored]
    exact .ok .nothing

theorem isUsed_alike_iff (same : SameActivationTable store store') (authorityId : Str) :
    SameActivation (InMemoryActivationStore.call (.isUsed authorityId) store).1
        (SQLiteActivationStore.call (.isUsed authorityId) store').1 ↔
      ActivationCall.Clean (.isUsed authorityId) store := by
  constructor
  · intro alike
    obtain ⟨answer, returned, -⟩ := alike.returned
    obtain ⟨used, ran, -⟩ := map_eq_ok.mp returned
    obtain ⟨found, read, -⟩ := bind_eq_ok.mp ran
    exact SQLiteActivationStore.encodable_of_bound read
  · intro encodable
    rw [SQLiteActivationStore.call, store'.isUsed_encodable encodable, ← same.isUsed_eq]
    exact .ok .flag

/-- A call is answered alike exactly if it meets the condition. -/
theorem alike_iff (call : ActivationCall) (same : SameActivationTable store store') :
    SameActivation (InMemoryActivationStore.call call store).1
        (SQLiteActivationStore.call call store').1 ↔ call.Clean store := by
  cases call with
  | put record unused => exact same.put_alike_iff unused
  | get authorityId => exact same.get_alike_iff authorityId
  | consume authorityId => exact same.consume_alike_iff authorityId
  | unconsume authorityId => exact same.unconsume_alike_iff authorityId
  | isUsed authorityId => exact same.isUsed_alike_iff authorityId

/-- A call that meets the condition keeps the tables the same. -/
theorem kept (call : ActivationCall) (same : SameActivationTable store store')
    (clean : call.Clean store) :
    SameActivationTable (InMemoryActivationStore.call call store).2
      (SQLiteActivationStore.call call store').2 := by
  cases call with
  | put record unused =>
      rw [InMemoryActivationStore.call, SQLiteActivationStore.call_put]
      by_cases known : record.authorityId ∈ store.records
      · obtain ⟨reason, reason', rejected, rejected'⟩ := same.put_repeated known
        rw [rejected, rejected']
        exact same
      · obtain ⟨instant, encodable⟩ := clean.resolve_left known
        obtain ⟨after, after', stored, stored', related⟩ :=
          same.put_new unused known instant encodable
        rw [stored, stored']
        exact related
  | get authorityId => exact same
  | consume authorityId =>
      rw [SQLiteActivationStore.call_consume]
      obtain ⟨flag, after, after', consumed, consumed', related⟩ := same.consume_alike clean
      rw [InMemoryActivationStore.call, consumed, consumed']
      exact related
  | unconsume authorityId =>
      rw [SQLiteActivationStore.call_unconsume]
      obtain ⟨after', restored, related⟩ := same.unconsume_alike clean
      rw [restored]
      exact related
  | isUsed authorityId => exact same

end SameActivationTable

/-! ### What a store promises by itself -/

namespace InMemoryActivationStore

variable {store : InMemoryActivationStore AwareDateTime}

theorem put_rejected_iff {record : ActivationRecord AwareDateTime} (unused : record.used = false) :
    (∃ reason, (call (.put record unused) store).1 = .error reason) ↔
      record.authorityId ∈ store.records := by
  rw [call, put]
  by_cases known : record.authorityId ∈ store.records
  · rw [if_pos known]
    exact ⟨fun _ => known, fun _ => ⟨_, rfl⟩⟩
  · rw [if_neg known]
    constructor
    · rintro ⟨reason, rejected⟩
      cases rejected
    · exact fun held => absurd held known

/-- A call adds a record exactly if it is a put of one. -/
theorem mem_call (call : ActivationCall) (authorityId : Str) :
    authorityId ∈ (InMemoryActivationStore.call call store).2.records ↔
      authorityId ∈ store.records ∨
        ∃ record unused, .put record unused = call ∧ record.authorityId = authorityId := by
  cases call with
  | put record unused =>
      have asked : (∃ other unused', ActivationCall.put other unused' = .put record unused ∧
          other.authorityId = authorityId) ↔ record.authorityId = authorityId := by
        constructor
        · rintro ⟨other, unused', same, named⟩
          cases same
          exact named
        · exact fun named => ⟨record, unused, rfl, named⟩
      rw [asked, InMemoryActivationStore.call, put]
      by_cases known : record.authorityId ∈ store.records
      · rw [if_pos known]
        constructor
        · exact .inl
        · rintro (held | rfl)
          · exact held
          · exact known
      · rw [if_neg known, or_comm, eq_comm]
        exact Finmap.mem_insert
  | get _ => simp [InMemoryActivationStore.call]
  | consume _ => simp [InMemoryActivationStore.call, consume_records]
  | unconsume _ => simp [InMemoryActivationStore.call, unconsume]
  | isUsed _ => simp [InMemoryActivationStore.call]

/-- A record exists under the identifiers that have been put. -/
theorem mem_after (calls : List ActivationCall) (authorityId : Str) :
    authorityId ∈ (Component.after InMemoryActivationStore.call store calls).records ↔
      authorityId ∈ store.records ∨
        ∃ record unused, ActivationCall.put record unused ∈ calls ∧
          record.authorityId = authorityId := by
  induction calls generalizing store with
  | nil => simp [Component.after]
  | cons call rest inductionHypothesis =>
      rw [Component.after, inductionHypothesis, mem_call, or_assoc]
      simp only [List.mem_cons, or_and_right, exists_or]

theorem consume_iff (authorityId : Str) :
    (call (.consume authorityId) store).1 = .ok (.flag true) ↔
      (∃ record, (call (.get authorityId) store).1 = .ok (.record (some record))) ∧
        (call (.isUsed authorityId) store).1 = .ok (.flag false) := by
  have found : (∃ record, (call (.get authorityId) store).1 = .ok (.record (some record))) ↔
      authorityId ∈ store.records := by
    simp [call, get, Dict.mem_iff_get]
  rw [found]
  simp only [call, consume, isUsed]
  by_cases free : authorityId ∉ store.records ∨ authorityId ∈ store.used
  · rw [dif_pos free]
    constructor
    · intro consumed
      cases consumed
    · rintro ⟨known, unused⟩
      rcases free with missing | used
      · exact absurd known missing
      · simp [used] at unused
  · rw [dif_neg free]
    obtain ⟨known, unused⟩ := not_or.mp free
    exact ⟨fun _ => ⟨not_not.mp known, by simp [unused]⟩, fun _ => rfl⟩

theorem call_rejected {record : ActivationRecord AwareDateTime} {unused : record.used = false}
    {reason : PyError} (rejected : (call (.put record unused) store).1 = .error reason) :
    (call (.put record unused) store).2 = store :=
  settle_raised rejected

end InMemoryActivationStore

namespace SQLiteActivationStore

variable {store : SQLiteActivationStore} {authorityId : Str}

theorem call_rejected {record : ActivationRecord AwareDateTime} {unused : record.used = false}
    {reason : PyError} (rejected : (call (.put record unused) store).1 = .error reason) :
    (call (.put record unused) store).2 = store := by
  rw [call_put] at rejected ⊢
  exact settle_raised rejected

/-- A record is read with the flag that `is_used` returns. -/
theorem get_flagged {record : ActivationRecord}
    (read : (call (.get authorityId) store).1 = .ok (.record (some record))) :
    (call (.isUsed authorityId) store).1 = .ok (.flag record.used) := by
  obtain ⟨found, got, same⟩ := map_eq_ok.mp read
  cases same
  exact map_eq_ok.mpr ⟨record.used, bind_eq_ok.mpr ⟨_, got, rfl⟩, rfl⟩

theorem consume_iff (authorityId : Str) :
    (call (.consume authorityId) store).1 = .ok (.flag true) ↔
      (∃ record, (call (.get authorityId) store).1 = .ok (.record (some record))) ∧
        (call (.isUsed authorityId) store).1 = .ok (.flag false) := by
  rw [call_consume]
  constructor
  · intro returned
    obtain ⟨⟨flag, after⟩, consumed, same⟩ := map_eq_ok.mp (settle_returned returned)
    obtain rfl := ActivationAnswer.flag.inj (Prod.mk.inj same).1
    obtain ⟨⟨record, present, unused⟩, -, -⟩ := consume_true consumed
    have read : (call (.get authorityId) store).1 = .ok (.record (some record)) :=
      map_eq_ok.mpr ⟨_, get_some present, rfl⟩
    rw [← unused]
    exact ⟨⟨record, read⟩, get_flagged read⟩
  · rintro ⟨⟨record, read⟩, unused⟩
    obtain ⟨found, got, same⟩ := map_eq_ok.mp read
    cases same
    have free : record.used = false :=
      ActivationAnswer.flag.inj (Except.ok.inj ((get_flagged read).symm.trans unused))
    obtain ⟨after, consumed⟩ := consume_unused (get_eq got).symm free
    rw [consumed]
    rfl

end SQLiteActivationStore

section

variable {calls : List ActivationCall}
  (clean : Component.Throughout InMemoryActivationStore.call ActivationCall.Clean .empty calls)

include clean

/-- After any calls that meet the condition, the tables are the same and so is the next
answer. -/
theorem sameActivationTable_after {earlier later : List ActivationCall} {call : ActivationCall}
    (split : calls = earlier ++ call :: later) :
    SameActivationTable (Component.after InMemoryActivationStore.call .empty earlier)
        (Component.after SQLiteActivationStore.call .empty earlier) ∧
      call.Clean (Component.after InMemoryActivationStore.call .empty earlier) := by
  rw [split, Component.throughout_append] at clean
  refine ⟨?_, clean.2.1⟩
  exact related_after (fun call _ _ related => related.kept call) SameActivationTable.empty clean.1

theorem InMemoryActivationStore.singleUse :
    SingleUse InMemoryActivationStore.call .empty calls where
  rejects := by
    intro earlier record unused later _
    have new : record.authorityId ∉ (empty : InMemoryActivationStore AwareDateTime).records :=
      Finmap.notMem_empty
    rw [put_rejected_iff, mem_after, or_iff_right new]
  unchanged := fun _ _ _ _ _ _ rejected => call_rejected rejected
  consumes := fun _ authorityId _ _ => consume_iff authorityId
  flagged := by
    intro earlier authorityId later record split read
    obtain ⟨same, -, free⟩ := sameActivationTable_after clean split
    have present := ActivationAnswer.record.inj (Except.ok.inj read)
    rw [same.unused authorityId record present]
    exact congrArg Except.ok (congrArg ActivationAnswer.flag free)

theorem SQLiteActivationStore.singleUse : SingleUse SQLiteActivationStore.call .empty calls where
  rejects := by
    intro earlier record unused later split
    obtain ⟨same, met⟩ := sameActivationTable_after clean split
    have alike := (same.alike_iff (.put record unused)).mpr met
    rw [← alike.error_iff]
    exact (InMemoryActivationStore.singleUse clean).rejects earlier record unused later split
  unchanged := fun _ _ _ _ _ _ rejected => call_rejected rejected
  consumes := fun _ authorityId _ _ => consume_iff authorityId
  flagged := fun _ _ _ _ _ read => get_flagged read

end

/-- The two activation stores answer a sequence of calls alike, each as a table of single-use
records, exactly if every call meets the condition in the store that it finds. -/
theorem activationStores_equal_iff (calls : List ActivationCall) :
    EqualActivation calls ↔
      Component.Throughout InMemoryActivationStore.call ActivationCall.Clean .empty calls := by
  have answered : List.Forall₂ SameActivation
        (Component.answers InMemoryActivationStore.call .empty calls)
        (Component.answers SQLiteActivationStore.call .empty calls) ↔
      Component.Throughout InMemoryActivationStore.call ActivationCall.Clean .empty calls :=
    forall₂_answers_iff (fun call _ _ related => related.alike_iff call)
      (fun call _ _ related => related.kept call) SameActivationTable.empty
  constructor
  · intro equal
    exact answered.mp equal.alike
  · intro clean
    exact ⟨answered.mpr clean, InMemoryActivationStore.singleUse clean,
      SQLiteActivationStore.singleUse clean⟩

/-- A record, read after its consumption. -/
def readConsumed : List ActivationCall :=
  [.put {
      authorityId := "nfa-000000000001"
      authorityDigest := "sha256:authority"
      candidateDigest := "sha256:candidate"
      sinkId := "ran-finality-sink-04"
      nonce := "nonce-000000000001"
      activationCommitment := "commitment"
      expiresAt := .utc ⟨63900000004000000, by decide⟩
      used := false } rfl,
    .consume "nfa-000000000001",
    .get "nfa-000000000001"]

/-- The flag of the record that an answer holds. -/
def ActivationAnswer.used? {τ : Type} : Except PyError (ActivationAnswer τ) → Option Bool
  | .ok (.record (some found)) => some found.used
  | _ => none

theorem SameActivation.used? {answer : Except PyError (ActivationAnswer AwareDateTime)}
    {answer' : Except PyError (ActivationAnswer DateTime)} (alike : SameActivation answer answer') :
    ActivationAnswer.used? answer = ActivationAnswer.used? answer' := by
  cases alike with
  | error => rfl
  | ok same =>
      cases same with
      | nothing => rfl
      | flag => rfl
      | record found =>
          cases found with
          | none => rfl
          | some same => exact congrArg some same.used.symm

/-- The in-memory store returns it as unused, and the SQLite store as used. -/
theorem readConsumed_not_equal : ¬ EqualActivation readConsumed := by
  intro equal
  have flags : (Component.answers InMemoryActivationStore.call .empty readConsumed).map
        ActivationAnswer.used? =
      (Component.answers SQLiteActivationStore.call .empty readConsumed).map
        ActivationAnswer.used? := by
    rw [← List.forall₂_eq_eq_eq, List.forall₂_map_left_iff, List.forall₂_map_right_iff]
    exact equal.alike.imp fun _ _ alike => alike.used?
  revert flags
  decide +kernel

end NetworkFinality
