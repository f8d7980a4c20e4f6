import Mathlib.Logic.Function.Basic
import NetworkFinality.Model.State

/-!
# Activation stores refine one table

What an activation store is for is a table: at most one record for each authority
identifier, and a flag that says whether the authority is consumed. `table` reads
that table off either store. Each operation then has one lemma about the table,
for both stores, so that no later proof looks inside a store.
-/

namespace NetworkFinality

open Python

/-- The record of each authority, with its current consumption flag. -/
abbrev ActivationTable (τ : Type := DateTime) := Str → Option (ActivationRecord τ)

section

variable {τ : Type}

/-- The authority has a record whose flag is set. -/
def ActivationTable.Used (table : ActivationTable τ) (authorityId : Str) : Prop :=
  ∃ record, table authorityId = some record ∧ record.used = true

/-- The record of each authority, whether consumed or not. -/
def ActivationTable.issued (table : ActivationTable τ) (authorityId : Str) :
    Option (ActivationRecord τ) := (table authorityId).map (·.withUsed false)

/-- The table with the flag of one record replaced. -/
def ActivationTable.setUsed (table : ActivationTable τ) (authorityId : Str) (used : Bool) :
    ActivationTable τ := fun other =>
  if other = authorityId then (table other).map (·.withUsed used) else table other

theorem ActivationTable.setUsed_self {table : ActivationTable τ} {authorityId : Str}
    {record : ActivationRecord τ} (present : table authorityId = some record) (used : Bool) :
    table.setUsed authorityId used authorityId = some (record.withUsed used) := by
  simp [ActivationTable.setUsed, present]

theorem ActivationTable.setUsed_ne {table : ActivationTable τ} {authorityId other : Str}
    (different : other ≠ authorityId) (used : Bool) :
    table.setUsed authorityId used other = table other := by
  simp [ActivationTable.setUsed, different]

@[simp] theorem ActivationTable.issued_setUsed (table : ActivationTable τ) (authorityId : Str)
    (used : Bool) : (table.setUsed authorityId used).issued = table.issued := by
  funext other
  by_cases same : other = authorityId
  · subst same
    simp [ActivationTable.issued, ActivationTable.setUsed, Function.comp_def]
  · simp [ActivationTable.issued, ActivationTable.setUsed, same]

theorem ActivationTable.used_setUsed {table : ActivationTable τ} {authorityId other : Str}
    (different : other ≠ authorityId) (used : Bool) :
    (table.setUsed authorityId used).Used other ↔ table.Used other := by
  simp only [ActivationTable.Used, ActivationTable.setUsed_ne different]

/-! ### The in-memory store -/

namespace InMemoryActivationStore

def table (store : InMemoryActivationStore τ) : ActivationTable τ := fun authorityId =>
  (store.records.get authorityId).map (·.withUsed (decide (authorityId ∈ store.used)))

variable {store : InMemoryActivationStore τ} {authorityId : Str}

private theorem notUsed (missing : authorityId ∉ store.records) : authorityId ∉ store.used :=
  fun used => missing (store.usedKnown authorityId used)

theorem table_put {record : ActivationRecord τ} {after : InMemoryActivationStore τ}
    (stored : store.put record = .ok after) :
    store.table record.authorityId = none ∧
      after.table = Function.update store.table record.authorityId
        (some (record.withUsed false)) := by
  unfold put at stored
  split at stored
  · cases stored
  · next missing =>
      cases stored
      constructor
      · simp [table, Dict.get_eq_none.mpr missing]
      · funext other
        by_cases same : other = record.authorityId
        · subst same
          simp [table, notUsed missing]
        · simp [table, Dict.get_set_ne _ _ same, Function.update_of_ne same]

theorem consume_true {after : InMemoryActivationStore τ}
    (consumed : store.consume authorityId = (true, after)) :
    (∃ record, store.table authorityId = some record ∧ record.used = false) ∧
      after.table = store.table.setUsed authorityId true ∧ after.unconsume authorityId = store := by
  unfold consume at consumed
  split at consumed
  · cases consumed
  · next free =>
      cases consumed
      have present : authorityId ∈ store.records := not_not.mp fun missing => free (.inl missing)
      have unused : authorityId ∉ store.used := fun used => free (.inr used)
      refine ⟨?_, ?_, ?_⟩
      · obtain ⟨record, found⟩ := Dict.mem_iff_get.mp present
        exact ⟨record.withUsed false, by simp [table, found, unused], rfl⟩
      · funext other
        by_cases same : other = authorityId
        · subst same
          cases found : store.records.get other <;> simp [table, ActivationTable.setUsed, found]
        · simp [table, ActivationTable.setUsed, same]
      · ext1
        · rfl
        · exact Finset.erase_insert unused

theorem consume_false {after : InMemoryActivationStore τ}
    (refused : store.consume authorityId = (false, after)) : after = store := by
  unfold consume at refused
  split at refused
  · cases refused
    rfl
  · cases refused

theorem consume_unused {record : ActivationRecord τ} (present : store.table authorityId = some record)
    (unused : record.used = false) : ∃ after, store.consume authorityId = (true, after) := by
  obtain ⟨stored, found, rfl⟩ := Option.map_eq_some_iff.mp present
  have known : authorityId ∈ store.records := Dict.mem_iff_get.mpr ⟨stored, found⟩
  have free : authorityId ∉ store.used := by simpa using unused
  unfold consume
  rw [dif_neg (by simp [known, free])]
  exact ⟨_, rfl⟩

theorem consume_used {record : ActivationRecord τ} (present : store.table authorityId = some record)
    (used : record.used = true) : store.consume authorityId = (false, store) := by
  obtain ⟨stored, found, rfl⟩ := Option.map_eq_some_iff.mp present
  have taken : authorityId ∈ store.used := by simpa using used
  unfold consume
  rw [dif_pos (.inr taken)]

theorem table_unconsume :
    (store.unconsume authorityId).table = store.table.setUsed authorityId false := by
  funext other
  by_cases same : other = authorityId
  · subst same
    cases found : store.records.get other <;>
      simp [table, unconsume, ActivationTable.setUsed, found]
  · simp [table, unconsume, ActivationTable.setUsed, same]

theorem isUsed_iff : store.isUsed authorityId = true ↔ store.table.Used authorityId := by
  constructor
  · intro used
    have member : authorityId ∈ store.used := of_decide_eq_true used
    obtain ⟨record, found⟩ := Dict.mem_iff_get.mp (store.usedKnown authorityId member)
    exact ⟨record.withUsed true, by simp [table, found, member], rfl⟩
  · rintro ⟨record, present, used⟩
    obtain ⟨stored, -, rfl⟩ := Option.map_eq_some_iff.mp present
    exact used

theorem isUsed_eq : store.isUsed authorityId = (store.table authorityId).any (·.used) := by
  cases found : store.records.get authorityId with
  | none =>
      have missing := notUsed (Dict.get_eq_none.mp found)
      simp [isUsed, table, found, missing]
  | some record => simp [isUsed, table, found]

theorem table_eq_none : store.table authorityId = none ↔ authorityId ∉ store.records := by
  rw [table, Option.map_eq_none_iff, Dict.get_eq_none]

theorem consume_records : (store.consume authorityId).2.records = store.records := by
  unfold consume
  split <;> rfl

end InMemoryActivationStore

end

/-! ### The SQLite store -/

/-- The record a row stands for, when its expiry text is a timestamp. -/
def ActivationRow.record? (authorityId : Str) (row : ActivationRow) : Option ActivationRecord :=
  match DateTime.fromisoformat row.expiresAt with
  | .ok expiresAt => some {
      authorityId := authorityId
      authorityDigest := row.authorityDigest
      candidateDigest := row.candidateDigest
      sinkId := row.sinkId
      nonce := row.nonce
      activationCommitment := row.activationCommitment
      expiresAt := expiresAt
      used := row.used }
  | .error _ => none

theorem ActivationRow.record?_used (authorityId : Str) (row : ActivationRow) (used : Bool) :
    ActivationRow.record? authorityId { row with used := used } =
      (row.record? authorityId).map (·.withUsed used) := by
  unfold record?
  cases DateTime.fromisoformat row.expiresAt <;> rfl

namespace SQLiteActivationStore

def table (store : SQLiteActivationStore) : ActivationTable := fun authorityId =>
  (store.rows.get authorityId).bind (·.record? authorityId)

variable {store : SQLiteActivationStore} {authorityId : Str}

/-- A stored row reads back as a record with the row's flag. -/
theorem row_reads {row : ActivationRow} (found : store.rows.get authorityId = some row) :
    Str.Encodable authorityId ∧ ∃ record, store.table authorityId = some record ∧
      row.record? authorityId = some record ∧ record.used = row.used := by
  obtain ⟨encodable, time, text⟩ := store.written authorityId row found
  refine ⟨encodable, ?_⟩
  simp [table, found, ActivationRow.record?, text]

theorem table_none (missing : store.rows.get authorityId = none) : store.table authorityId = none := by
  simp [table, missing]

theorem table_put {record : ActivationRecord} {after : SQLiteActivationStore}
    (stored : store.put record = .ok after) :
    store.table record.authorityId = none ∧
      after.table = Function.update store.table record.authorityId
        (some (record.withUsed false)) := by
  unfold put at stored
  split at stored
  · split at stored
    · cases stored
    · next missing =>
        cases stored
        refine ⟨table_none (Dict.get_eq_none.mpr missing), ?_⟩
        funext other
        by_cases same : other = record.authorityId
        · subst same
          simp [table, write, ActivationRow.record?, ActivationRecord.withUsed]
        · simp [table, write, Dict.get_set_ne _ _ same, Function.update_of_ne same]
  · cases stored

/-- A record that is put has been bound. -/
theorem put_encodable {record : ActivationRecord} {after : SQLiteActivationStore}
    (stored : store.put record = .ok after) :
    ∀ text ∈ [record.authorityId, record.authorityDigest, record.candidateDigest, record.sinkId,
      record.nonce, record.activationCommitment], Str.Encodable text := by
  unfold put at stored
  split at stored
  · next bound => exact bound
  · cases stored

theorem get_eq {found : Option ActivationRecord} (read : store.get authorityId = .ok found) :
    found = store.table authorityId := by
  obtain ⟨-, -, read⟩ := bind_eq_ok.mp read
  cases row : store.rows.get authorityId with
  | none =>
      simp only [row, pure_eq_ok] at read
      rw [table_none row, ← read]
  | some row' =>
      obtain ⟨-, time, text⟩ := store.written authorityId row' row
      simp only [row, text, DateTime.fromisoformat_isoformat, bind_eq_ok, pure_eq_ok,
        Except.ok.injEq, exists_eq_left'] at read
      simp [← read, table, row, ActivationRow.record?, text]

/-- Reading a record that exists does not fail. -/
theorem get_some {record : ActivationRecord} (present : store.table authorityId = some record) :
    store.get authorityId = .ok (some record) := by
  cases row : store.rows.get authorityId with
  | none => simp [table_none row] at present
  | some row' =>
      obtain ⟨encodable, time, text⟩ := store.written authorityId row' row
      have bound : bindText [authorityId] = .ok () := bindText_ok.mpr (by simpa using encodable)
      simp only [table, row, Option.bind_some, ActivationRow.record?, text,
        DateTime.fromisoformat_isoformat, Option.some.injEq] at present
      simp only [get, bound, row, text, bind, Except.bind, pure, Except.pure,
        DateTime.fromisoformat_isoformat, present]

/-- The rows after an update of one flag. -/
theorem get_setUsed (used : Bool) (other : Str) :
    (store.setUsed authorityId used).rows.get other =
      if other = authorityId then (store.rows.get other).map fun row => { row with used := used }
      else store.rows.get other := by
  unfold setUsed
  split
  · next row found =>
      by_cases same : other = authorityId
      · subst same
        simp [write, found]
      · simp [write, Dict.get_set_ne _ _ same, same]
  · next missing =>
      by_cases same : other = authorityId
      · subst same
        simp [missing]
      · simp [same]

theorem table_setUsed (used : Bool) :
    (store.setUsed authorityId used).table = store.table.setUsed authorityId used := by
  funext other
  by_cases same : other = authorityId
  · subst same
    cases row : store.rows.get other with
    | none => simp [table, get_setUsed, row, ActivationTable.setUsed]
    | some row' =>
        simp [table, get_setUsed, row, ActivationTable.setUsed, ActivationRow.record?_used]
  · simp [table, get_setUsed, same, ActivationTable.setUsed]

/-- Setting a flag back to what it was restores the store. -/
theorem setUsed_setUsed {row : ActivationRow} (found : store.rows.get authorityId = some row)
    (used : Bool) : (store.setUsed authorityId used).setUsed authorityId row.used = store := by
  ext1
  ext1 other
  rw [get_setUsed, get_setUsed]
  by_cases same : other = authorityId
  · subst same
    simp [found]
  · simp [same]

theorem consume_true {after : SQLiteActivationStore}
    (consumed : store.consume authorityId = .ok (true, after)) :
    (∃ record, store.table authorityId = some record ∧ record.used = false) ∧
      after.table = store.table.setUsed authorityId true ∧
      after.unconsume authorityId = .ok store := by
  obtain ⟨_, bound, consumed⟩ := bind_eq_ok.mp consumed
  cases found : store.rows.get authorityId with
  | none => simp [found] at consumed
  | some row =>
      cases unused : row.used with
      | true => simp [found, unused] at consumed
      | false =>
          simp only [found, unused, Bool.false_eq_true, if_false, pure_eq_ok, Prod.mk.injEq,
            true_and] at consumed
          obtain ⟨-, record, present, -, flag⟩ := row_reads found
          have restored := setUsed_setUsed found true
          rw [unused] at restored
          refine ⟨⟨record, present, flag.trans unused⟩, ?_, ?_⟩
          · rw [← consumed, table_setUsed]
          · rw [← consumed]
            exact bind_eq_ok.mpr ⟨_, bound, by rw [restored]; rfl⟩

theorem consume_false {after : SQLiteActivationStore}
    (refused : store.consume authorityId = .ok (false, after)) : after = store := by
  obtain ⟨-, -, refused⟩ := bind_eq_ok.mp refused
  cases found : store.rows.get authorityId with
  | none =>
      rw [found] at refused
      exact (Prod.mk.inj (pure_eq_ok.mp refused)).2.symm
  | some row =>
      cases unused : row.used with
      | false => simp [found, unused] at refused
      | true =>
          simp only [found, unused, if_true, pure_eq_ok] at refused
          exact (Prod.mk.inj refused).2.symm

theorem consume_unused {record : ActivationRecord} (present : store.table authorityId = some record)
    (unused : record.used = false) :
    ∃ after, store.consume authorityId = .ok (true, after) := by
  cases row : store.rows.get authorityId with
  | none => simp [table_none row] at present
  | some row' =>
      obtain ⟨encodable, record', present', -, flag⟩ := row_reads row
      have same : record' = record := Option.some.inj (present'.symm.trans present)
      have bound : bindText [authorityId] = .ok () := bindText_ok.mpr (by simpa using encodable)
      have free : row'.used = false := by rw [← flag, same, unused]
      simp [consume, bound, row, free, bind, Except.bind, pure, Except.pure]

theorem consume_used {record : ActivationRecord} (present : store.table authorityId = some record)
    (used : record.used = true) : store.consume authorityId = .ok (false, store) := by
  cases row : store.rows.get authorityId with
  | none => simp [table_none row] at present
  | some row' =>
      obtain ⟨encodable, record', present', -, flag⟩ := row_reads row
      have same : record' = record := Option.some.inj (present'.symm.trans present)
      have bound : bindText [authorityId] = .ok () := bindText_ok.mpr (by simpa using encodable)
      have taken : row'.used = true := by rw [← flag, same, used]
      simp [consume, bound, row, taken, bind, Except.bind, pure, Except.pure]

theorem table_unconsume {after : SQLiteActivationStore}
    (restored : store.unconsume authorityId = .ok after) :
    after.table = store.table.setUsed authorityId false := by
  obtain ⟨-, -, restored⟩ := bind_eq_ok.mp restored
  rw [← pure_eq_ok.mp restored, table_setUsed]

theorem isUsed_ok {used : Bool} (read : store.isUsed authorityId = .ok used) :
    used = true ↔ store.table.Used authorityId := by
  obtain ⟨found, got, read⟩ := bind_eq_ok.mp read
  have present := get_eq got
  cases found with
  | none => simp [← pure_eq_ok.mp read, ActivationTable.Used, ← present]
  | some record => simp [← pure_eq_ok.mp read, ActivationTable.Used, ← present]

theorem isUsed_some {record : ActivationRecord} (present : store.table authorityId = some record) :
    store.isUsed authorityId = .ok record.used := by
  simp [isUsed, get_some present, bind, Except.bind, pure, Except.pure]

end SQLiteActivationStore

/-! ### Either store -/

namespace ActivationStore

/-- The table a store holds. -/
def table : ActivationStore → ActivationTable
  | .inMemory store => store.table
  | .sqlite store => store.table

variable {store after : ActivationStore} {authorityId : Str}

/-- A record is put only under an identifier that is free, and unconsumed. -/
theorem table_put {record : ActivationRecord} (stored : store.put record = .ok after) :
    store.table record.authorityId = none ∧
      after.table = Function.update store.table record.authorityId
        (some (record.withUsed false)) := by
  cases store with
  | inMemory store =>
      obtain ⟨result, put, rfl⟩ := map_eq_ok.mp stored
      exact InMemoryActivationStore.table_put put
  | sqlite store =>
      obtain ⟨result, put, rfl⟩ := map_eq_ok.mp stored
      exact SQLiteActivationStore.table_put put

/-- `get` returns the record of the table, up to its flag: the in-memory store
keeps the flag elsewhere. -/
theorem get_ok {found : Option ActivationRecord} (read : store.get authorityId = .ok found) :
    found.map (·.withUsed false) = store.table.issued authorityId := by
  cases store with
  | inMemory store =>
      obtain rfl : store.get authorityId = found := Except.ok.inj read
      simp only [table, InMemoryActivationStore.table, InMemoryActivationStore.get,
        ActivationTable.issued, Option.map_map, Function.comp_def,
        ActivationRecord.withUsed_withUsed]
  | sqlite store =>
      rw [SQLiteActivationStore.get_eq read]
      rfl

theorem get_some {record : ActivationRecord} (present : store.table authorityId = some record) :
    ∃ found, store.get authorityId = .ok (some found) ∧
      found.withUsed false = record.withUsed false := by
  cases store with
  | inMemory store =>
      obtain ⟨found, stored, rfl⟩ := Option.map_eq_some_iff.mp present
      exact ⟨found, by rw [get, InMemoryActivationStore.get, stored], rfl⟩
  | sqlite store => exact ⟨record, SQLiteActivationStore.get_some present, rfl⟩

theorem isUsed_ok {used : Bool} (read : store.isUsed authorityId = .ok used) :
    used = true ↔ store.table.Used authorityId := by
  cases store with
  | inMemory store =>
      rw [← Except.ok.inj read]
      exact InMemoryActivationStore.isUsed_iff
  | sqlite store => exact SQLiteActivationStore.isUsed_ok read

theorem isUsed_some {record : ActivationRecord} (present : store.table authorityId = some record) :
    store.isUsed authorityId = .ok record.used := by
  cases store with
  | inMemory store =>
      obtain ⟨found, -, rfl⟩ := Option.map_eq_some_iff.mp present
      rfl
  | sqlite store => exact SQLiteActivationStore.isUsed_some present

/-- Only an unconsumed authority is consumed, and undoing it restores the store. -/
theorem consume_true (consumed : store.consume authorityId = .ok (true, after)) :
    (∃ record, store.table authorityId = some record ∧ record.used = false) ∧
      after.table = store.table.setUsed authorityId true ∧
      after.unconsume authorityId = .ok store := by
  cases store with
  | inMemory store =>
      rcases result : store.consume authorityId with ⟨flag, next⟩
      simp only [consume, result, Except.ok.injEq, Prod.mk.injEq] at consumed
      obtain ⟨rfl, rfl⟩ := consumed
      obtain ⟨free, table, restored⟩ := InMemoryActivationStore.consume_true result
      exact ⟨free, table, by rw [unconsume, restored]⟩
  | sqlite store =>
      obtain ⟨⟨flag, result⟩, consume, same⟩ := bind_eq_ok.mp consumed
      obtain ⟨rfl, rfl⟩ := Prod.mk.inj (pure_eq_ok.mp same)
      obtain ⟨free, table, restored⟩ := SQLiteActivationStore.consume_true consume
      exact ⟨free, table, by rw [unconsume, restored]; rfl⟩

theorem consume_false (refused : store.consume authorityId = .ok (false, after)) :
    after = store := by
  cases store with
  | inMemory store =>
      rcases result : store.consume authorityId with ⟨flag, next⟩
      simp only [consume, result, Except.ok.injEq, Prod.mk.injEq] at refused
      obtain ⟨rfl, rfl⟩ := refused
      rw [InMemoryActivationStore.consume_false result]
  | sqlite store =>
      obtain ⟨⟨flag, result⟩, consume, same⟩ := bind_eq_ok.mp refused
      obtain ⟨rfl, rfl⟩ := Prod.mk.inj (pure_eq_ok.mp same)
      rw [SQLiteActivationStore.consume_false consume]

theorem consume_unused {record : ActivationRecord} (present : store.table authorityId = some record)
    (unused : record.used = false) : ∃ after, store.consume authorityId = .ok (true, after) := by
  cases store with
  | inMemory store =>
      obtain ⟨after, consumed⟩ := InMemoryActivationStore.consume_unused present unused
      exact ⟨.inMemory after, by simp only [consume, consumed]⟩
  | sqlite store =>
      obtain ⟨after, consumed⟩ := SQLiteActivationStore.consume_unused present unused
      exact ⟨.sqlite after, bind_eq_ok.mpr ⟨_, consumed, rfl⟩⟩

theorem consume_used {record : ActivationRecord} (present : store.table authorityId = some record)
    (used : record.used = true) : store.consume authorityId = .ok (false, store) := by
  cases store with
  | inMemory store =>
      simp only [consume, InMemoryActivationStore.consume_used present used]
  | sqlite store =>
      exact bind_eq_ok.mpr ⟨_, SQLiteActivationStore.consume_used present used, rfl⟩

/-- The flag of a record that exists can be cleared. -/
theorem unconsume_some {record : ActivationRecord} (present : store.table authorityId = some record) :
    ∃ after, store.unconsume authorityId = .ok after := by
  cases store with
  | inMemory store => exact ⟨_, rfl⟩
  | sqlite store =>
      cases row : store.rows.get authorityId with
      | none =>
          rw [table, SQLiteActivationStore.table_none row] at present
          cases present
      | some row' =>
          obtain ⟨encodable, -⟩ := store.written authorityId row' row
          have bound : bindText [authorityId] = .ok () := bindText_ok.mpr (by simpa using encodable)
          refine ⟨.sqlite (store.setUsed authorityId false), map_eq_ok.mpr ⟨_, ?_, rfl⟩⟩
          exact bind_eq_ok.mpr ⟨(), bound, rfl⟩

theorem table_unconsume (restored : store.unconsume authorityId = .ok after) :
    after.table = store.table.setUsed authorityId false := by
  cases store with
  | inMemory store =>
      rw [← Except.ok.inj restored]
      exact InMemoryActivationStore.table_unconsume
  | sqlite store =>
      obtain ⟨result, unconsumed, rfl⟩ := map_eq_ok.mp restored
      exact SQLiteActivationStore.table_unconsume unconsumed

/-- Two stores answer every question about one identifier alike. -/
structure AgreesAt (authorityId : Str) (left right : ActivationStore) : Prop where
  get : left.get authorityId = right.get authorityId
  isUsed : left.isUsed authorityId = right.isUsed authorityId
  consume : (left.consume authorityId).map Prod.fst = (right.consume authorityId).map Prod.fst

theorem AgreesAt.refl (authorityId : Str) (store : ActivationStore) :
    AgreesAt authorityId store store := ⟨rfl, rfl, rfl⟩

theorem AgreesAt.symm {left right : ActivationStore} (agrees : AgreesAt authorityId left right) :
    AgreesAt authorityId right left := ⟨agrees.get.symm, agrees.isUsed.symm, agrees.consume.symm⟩

theorem AgreesAt.trans {first second third : ActivationStore}
    (left : AgreesAt authorityId first second) (right : AgreesAt authorityId second third) :
    AgreesAt authorityId first third :=
  ⟨left.get.trans right.get, left.isUsed.trans right.isUsed, left.consume.trans right.consume⟩

/-- Consuming one identifier leaves what the store answers about the others. -/
theorem consume_other {flag : Bool} (consumed : store.consume authorityId = .ok (flag, after))
    {other : Str} (different : other ≠ authorityId) : AgreesAt other after store := by
  cases store with
  | inMemory store =>
      have records : ∀ {flag next}, store.consume authorityId = (flag, next) →
          next.records = store.records ∧ (other ∈ next.used ↔ other ∈ store.used) := by
        intro flag next taken
        unfold InMemoryActivationStore.consume at taken
        split at taken <;> obtain ⟨-, rfl⟩ := Prod.mk.inj taken
        · exact ⟨rfl, Iff.rfl⟩
        · exact ⟨rfl, by simp [different]⟩
      rcases result : store.consume authorityId with ⟨flag', next⟩
      simp only [consume, result, Except.ok.injEq, Prod.mk.injEq] at consumed
      obtain ⟨-, rfl⟩ := consumed
      obtain ⟨sameRecords, sameUsed⟩ := records result
      refine ⟨?_, ?_, ?_⟩
      · simp [get, InMemoryActivationStore.get, sameRecords]
      · simp [isUsed, InMemoryActivationStore.isUsed, sameUsed]
      · simp only [consume, InMemoryActivationStore.consume, sameRecords, sameUsed]
        split <;> rfl
  | sqlite store =>
      obtain ⟨⟨flag', next⟩, consume', same⟩ := bind_eq_ok.mp consumed
      obtain ⟨-, rfl⟩ := Prod.mk.inj (pure_eq_ok.mp same)
      have rows : next.rows.get other = store.rows.get other := by
        obtain ⟨_, -, taken⟩ := bind_eq_ok.mp consume'
        cases found : store.rows.get authorityId with
        | none =>
            rw [found] at taken
            obtain ⟨-, rfl⟩ := Prod.mk.inj (pure_eq_ok.mp taken)
            rfl
        | some row =>
            cases used : row.used with
            | true =>
                simp only [found, used, if_true] at taken
                obtain ⟨-, rfl⟩ := Prod.mk.inj (pure_eq_ok.mp taken)
                rfl
            | false =>
                simp only [found, used, Bool.false_eq_true, if_false] at taken
                obtain ⟨-, rfl⟩ := Prod.mk.inj (pure_eq_ok.mp taken)
                rw [SQLiteActivationStore.get_setUsed, if_neg different]
      have got : next.get other = store.get other := by
        simp only [SQLiteActivationStore.get, rows]
      refine ⟨got, ?_, ?_⟩
      · simp only [isUsed, SQLiteActivationStore.isUsed, got]
      · simp only [consume, SQLiteActivationStore.consume, rows]
        cases bound : bindText [other] with
        | error reason => rfl
        | ok _ =>
            cases found : store.rows.get other with
            | none => rfl
            | some row =>
                cases used : row.used <;>
                  simp [used, bind, Except.bind, pure, Except.pure, Except.map]

/-- A consumed identifier is used. -/
theorem isUsed_consumed (consumed : store.consume authorityId = .ok (true, after)) :
    after.isUsed authorityId = .ok true := by
  obtain ⟨⟨record, present, -⟩, table, -⟩ := consume_true consumed
  exact isUsed_some (by rw [table, ActivationTable.setUsed_self present])

end ActivationStore
end NetworkFinality
