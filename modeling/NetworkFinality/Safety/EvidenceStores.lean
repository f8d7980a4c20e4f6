import NetworkFinality.Semantics.Lockstep
import NetworkFinality.Model.Statements
import NetworkFinality.Refinement.SameTables
import NetworkFinality.Spec.Encodable

/-!
# The two evidence stores call by call

Both stores are asked the same calls from the start. They answer alike, and keep what they
have returned, exactly as long as no digestible commit repeats an identifier, has a counter
that SQLite has no integer for or a timestamp that does not equal itself in UTC, and every
identifier read can be bound as SQL text. The in-memory store replaces the record of a
repeated identifier and returns the new one; the SQLite store refuses it. The in-memory store
keeps a naive timestamp as it is; the SQLite store reads it back as an aware one.
-/

namespace NetworkFinality

open Python Semantics

/-- `stored == committed`: equal fields, with timestamps compared as datetimes. -/
structure EvidenceRecord.Equal (stored committed : EvidenceRecord PyDateTime) : Prop where
  fields : stored.dated committed.committedAt = committed
  committedAt : stored.committedAt.Equal committed.committedAt

theorem EvidenceRecord.Equal.refl (record : EvidenceRecord PyDateTime) : record.Equal record :=
  ⟨rfl, .refl _⟩

/-- One outcome: both calls reject, or both return equal records or none. -/
abbrev SameEvidence : Except PyError (Option (EvidenceRecord PyDateTime)) →
    Except PyError (Option (EvidenceRecord PyDateTime)) → Prop :=
  SameOutcome (Option.Rel fun record stored => stored.Equal record)

/-- The body of the fields has canonical bytes. -/
def EvidenceFields.Digestible {τ : Type} [Timestamp τ] (fields : EvidenceFields τ)
    (previousDigest : Str) : Prop :=
  ∃ time, Timestamp.aware fields.committedAt = .ok time ∧
    ((fields.dated time).body previousDigest).Encodable

section

variable [Hashlib]

theorem EvidenceFields.digestible_iff {τ : Type} [Timestamp τ] {fields : EvidenceFields τ}
    {previousDigest : Str} :
    (∃ digest, fields.bodyDigest previousDigest = .ok digest) ↔
      fields.Digestible previousDigest := by
  constructor
  · rintro ⟨digest, computed⟩
    obtain ⟨time, aware, digested⟩ := EvidenceFields.bodyDigest_ok.mp computed
    exact ⟨time, aware, digestValue_isOk_iff.mp ⟨digest, digested⟩⟩
  · rintro ⟨time, aware, encodable⟩
    obtain ⟨digest, digested⟩ := digestValue_isOk_iff.mpr encodable
    exact ⟨digest, EvidenceFields.bodyDigest_ok.mpr ⟨time, aware, digested⟩⟩

/-- A rejected commit changes nothing, and a record that a commit has returned is found
under its identifier after any further calls. -/
structure AppendOnly {S : Type}
    (store : Component EvidenceCall (Except PyError (Option (EvidenceRecord PyDateTime))) S)
    (start : S) (calls : List EvidenceCall) : Prop where
  rejected : ∀ earlier fields later reason, calls = earlier ++ .commit fields :: later →
    (store (.commit fields) (store.after start earlier)).1 = .error reason →
    (store (.commit fields) (store.after start earlier)).2 = store.after start earlier
  kept : ∀ earlier fields further later record,
    calls = earlier ++ .commit fields :: further ++ later →
    (store (.commit fields) (store.after start earlier)).1 = .ok (some record) →
    ∃ stored, (store (.get fields.evidenceId)
        (store.after start (earlier ++ .commit fields :: further))).1 = .ok (some stored) ∧
      stored.Equal record

variable [LocalTime]

/-- What the two stores are to be for a sequence of calls. -/
structure InterchangeableEvidence (calls : List EvidenceCall) : Prop where
  alike : List.Forall₂ SameEvidence (Component.answers InMemoryEvidenceStore.call .empty calls)
    (Component.answers SQLiteEvidenceStore.call .empty calls)
  inMemory : AppendOnly InMemoryEvidenceStore.call .empty calls
  sqlite : AppendOnly SQLiteEvidenceStore.call .empty calls

/-- A commit of fields that have a digest takes a new identifier, a counter of 64 bits and an
aware timestamp. An identifier that is read can be bound. -/
def EvidenceCall.Clean : EvidenceCall → InMemoryEvidenceStore PyDateTime → Prop
  | .commit fields, store => fields.Digestible store.tail →
      store.get fields.evidenceId = none ∧ bindInteger fields.monotonicCounter = .ok () ∧
        fields.committedAt.Absolute
  | .get evidenceId, _ => evidenceId.Encodable

/-! ### One call -/

/-- The stores hold one tail and, under each identifier, one record. -/
structure SameEvidenceTable (store : InMemoryEvidenceStore PyDateTime)
    (store' : SQLiteEvidenceStore) : Prop where
  tail : store.tail = store'.tail
  records : TableRel (fun record stored => stored.inUtc.Equal record) store.table store'.table

omit [Hashlib] in
/-- A record that SQLite has written equals the committed one exactly if the timestamp equals
itself in UTC. -/
theorem EvidenceRecord.inUtc_equal_iff {record : EvidenceRecord PyDateTime} {instant : DateTime}
    (inUtc : Timestamp.toUtc record.committedAt = .ok instant) :
    (record.dated (AwareDateTime.utc instant)).inUtc.Equal record ↔
      record.committedAt.Absolute := by
  obtain ⟨aware, localized, utc⟩ := bind_eq_ok.mp inUtc
  rw [← PyDateTime.equal_utc_iff localized utc]
  exact ⟨fun equal => equal.committedAt, fun equal => ⟨rfl, equal⟩⟩

namespace SQLiteEvidenceStore

theorem call_get {store : SQLiteEvidenceStore} {evidenceId : Str} {stored : EvidenceRecord}
    (present : store.table evidenceId = some stored) :
    (call (.get evidenceId) store).1 = .ok (some stored.inUtc) := by
  rw [call, get_some present]
  rfl

end SQLiteEvidenceStore

namespace SameEvidenceTable

variable {store : InMemoryEvidenceStore PyDateTime} {store' : SQLiteEvidenceStore}

omit [Hashlib] [LocalTime] in
theorem empty : SameEvidenceTable .empty .empty where
  tail := rfl
  records := fun _ => .none

theorem get_iff (same : SameEvidenceTable store store') (evidenceId : Str) :
    SameEvidence (.ok (store.get evidenceId)) (SQLiteEvidenceStore.call (.get evidenceId) store').1 ↔
      evidenceId.Encodable := by
  rw [SQLiteEvidenceStore.call]
  constructor
  · intro alike
    obtain ⟨found, returned, -⟩ := alike.returned
    obtain ⟨_, read, -⟩ := map_eq_ok.mp returned
    obtain ⟨_, bound, -⟩ := bind_eq_ok.mp read
    simpa using bindText_ok.mp bound
  · intro encodable
    rw [store'.get_encodable encodable]
    have related := same.records evidenceId
    change SameEvidence (.ok (store.table evidenceId)) (.ok ((store'.table evidenceId).map _))
    generalize store.table evidenceId = found at related ⊢
    generalize store'.table evidenceId = found' at related ⊢
    cases related with
    | none => exact .ok .none
    | some equal => exact .ok (.some equal)

/-- Fields that have a digest are committed in memory under any identifier, and by SQLite
under a new one. -/
theorem commit_digested (same : SameEvidenceTable store store')
    {fields : EvidenceFields PyDateTime} (digestible : fields.Digestible store.tail)
    (free : store.table fields.evidenceId = none)
    (fits : bindInteger fields.monotonicCounter = .ok ()) :
    ∃ record after after', store.commit fields = .ok (record, after) ∧
      store'.commit fields = .ok (record, after') ∧
      (fields.committedAt.Absolute → SameEvidenceTable after after') := by
  obtain ⟨digest, digested⟩ := EvidenceFields.digestible_iff.mpr digestible
  have committed : store.commit fields = .ok (⟨fields, store.tail, digest⟩, _) :=
    bind_eq_ok.mpr ⟨digest, digested, rfl⟩
  obtain ⟨after', committed'⟩ :=
    store'.commit_free (same.tail ▸ digested) (same.records.eq_none_iff.mp free) fits
  rw [← same.tail] at committed'
  obtain ⟨-, -, tail, table⟩ := InMemoryEvidenceStore.commit_ok committed
  obtain ⟨-, -, tail', -, time, inUtc, table'⟩ := SQLiteEvidenceStore.commit_ok committed'
  refine ⟨_, _, after', committed, committed', fun absolute => ⟨tail.trans tail'.symm, ?_⟩⟩
  rw [table, table']
  exact same.records.update ((EvidenceRecord.inUtc_equal_iff inUtc).mpr absolute)

/-- Fields without a digest are committed nowhere. -/
theorem commit_undigested (same : SameEvidenceTable store store')
    {fields : EvidenceFields PyDateTime} (undigestible : ¬ fields.Digestible store.tail) :
    ∃ reason reason', store.commit fields = .error reason ∧
      store'.commit fields = .error reason' := by
  have undigested : ∀ digest, fields.bodyDigest store.tail ≠ .ok digest :=
    fun digest digested => undigestible (EvidenceFields.digestible_iff.mp ⟨digest, digested⟩)
  have rejects : ∃ reason, store.commit fields = .error reason := by
    cases outcome : store.commit fields with
    | error reason => exact ⟨reason, rfl⟩
    | ok result => exact absurd (InMemoryEvidenceStore.commit_ok outcome).1 (undigested _)
  have rejects' : ∃ reason, store'.commit fields = .error reason := by
    cases outcome : store'.commit fields with
    | error reason => exact ⟨reason, rfl⟩
    | ok result =>
        have digested := (SQLiteEvidenceStore.commit_ok outcome).1
        rw [← same.tail] at digested
        exact absurd digested (undigested _)
  obtain ⟨reason, rejected⟩ := rejects
  obtain ⟨reason', rejected'⟩ := rejects'
  exact ⟨reason, reason', rejected, rejected'⟩

/-- A call that meets the condition is answered alike. -/
theorem alike (call : EvidenceCall) (same : SameEvidenceTable store store')
    (clean : call.Clean store) :
    SameEvidence (InMemoryEvidenceStore.call call store).1
      (SQLiteEvidenceStore.call call store').1 := by
  cases call with
  | get evidenceId => exact (same.get_iff evidenceId).mpr clean
  | commit fields =>
      rw [InMemoryEvidenceStore.call_commit, SQLiteEvidenceStore.call_commit]
      by_cases digestible : fields.Digestible store.tail
      · obtain ⟨free, fits, -⟩ := clean digestible
        obtain ⟨record, after, after', committed, committed', -⟩ :=
          same.commit_digested digestible free fits
        rw [committed, committed']
        exact .ok (.some (.refl record))
      · obtain ⟨reason, reason', rejected, rejected'⟩ := same.commit_undigested digestible
        rw [rejected, rejected']
        exact .error

/-- A call that meets the condition keeps the tables and tails the same. -/
theorem kept (call : EvidenceCall) (same : SameEvidenceTable store store')
    (clean : call.Clean store) :
    SameEvidenceTable (InMemoryEvidenceStore.call call store).2
      (SQLiteEvidenceStore.call call store').2 := by
  cases call with
  | get evidenceId => exact same
  | commit fields =>
      rw [InMemoryEvidenceStore.call_commit, SQLiteEvidenceStore.call_commit]
      by_cases digestible : fields.Digestible store.tail
      · obtain ⟨free, fits, absolute⟩ := clean digestible
        obtain ⟨record, after, after', committed, committed', related⟩ :=
          same.commit_digested digestible free fits
        rw [committed, committed']
        exact related absolute
      · obtain ⟨reason, reason', rejected, rejected'⟩ := same.commit_undigested digestible
        rw [rejected, rejected']
        exact same

/-- A call that is answered alike, and whose record the SQLite store returns right after it,
meets the condition. -/
theorem clean_of_alike (call : EvidenceCall) (same : SameEvidenceTable store store')
    (alike : SameEvidence (InMemoryEvidenceStore.call call store).1
      (SQLiteEvidenceStore.call call store').1)
    (kept : ∀ fields record, call = .commit fields →
      (SQLiteEvidenceStore.call call store').1 = .ok (some record) →
      ∃ stored, (SQLiteEvidenceStore.call (.get fields.evidenceId)
          (SQLiteEvidenceStore.call call store').2).1 = .ok (some stored) ∧ stored.Equal record) :
    call.Clean store := by
  cases call with
  | get evidenceId => exact (same.get_iff evidenceId).mp alike
  | commit fields =>
      intro digestible
      have found := kept fields
      rw [InMemoryEvidenceStore.call_commit, SQLiteEvidenceStore.call_commit] at alike
      rw [SQLiteEvidenceStore.call_commit] at found
      obtain ⟨digest, digested⟩ := EvidenceFields.digestible_iff.mpr digestible
      have committed : store.commit fields = .ok (⟨fields, store.tail, digest⟩, _) :=
        bind_eq_ok.mpr ⟨digest, digested, rfl⟩
      rw [committed] at alike
      -- The in-memory store has committed, so the SQLite store has as well.
      obtain ⟨_, returned, -⟩ := alike.returned
      obtain ⟨⟨record, after'⟩, committed', -⟩ := map_eq_ok.mp (settle_returned returned)
      obtain ⟨-, named, -, free, instant, inUtc, table⟩ :=
        SQLiteEvidenceStore.commit_ok committed'
      refine ⟨same.records.eq_none_iff.mpr free, SQLiteEvidenceStore.commit_fits committed', ?_⟩
      rw [committed'] at found
      obtain ⟨stored, read, equal⟩ := found record rfl rfl
      have present : after'.table fields.evidenceId = some (record.dated (.utc instant)) := by
        rw [table, Function.update_self]
      obtain rfl : (record.dated (.utc instant)).inUtc = stored :=
        Option.some.inj (Except.ok.inj ((SQLiteEvidenceStore.call_get present).symm.trans read))
      have committedAt : record.committedAt = fields.committedAt := by rw [named]
      rw [← committedAt] at inUtc ⊢
      exact (EvidenceRecord.inUtc_equal_iff inUtc).mp equal

end SameEvidenceTable

/-! ### What a store keeps -/

namespace InMemoryEvidenceStore

variable {store : InMemoryEvidenceStore PyDateTime}

theorem call_rejected {fields : EvidenceFields PyDateTime} {reason : PyError}
    (rejected : (call (.commit fields) store).1 = .error reason) :
    (call (.commit fields) store).2 = store := by
  rw [call_commit] at rejected ⊢
  exact settle_raised rejected

theorem call_committed {fields : EvidenceFields PyDateTime} {record : EvidenceRecord PyDateTime}
    (returned : (call (.commit fields) store).1 = .ok (some record)) :
    (call (.commit fields) store).2.table fields.evidenceId = some record := by
  rw [call_commit] at returned ⊢
  obtain ⟨⟨record', after⟩, committed, same⟩ := map_eq_ok.mp (settle_returned returned)
  obtain rfl : record' = record := Option.some.inj (Prod.mk.inj same).1
  obtain ⟨-, -, -, table⟩ := commit_ok committed
  rw [committed]
  exact (congrFun table _).trans (Function.update_self ..)

/-- A call that meets the condition replaces no record. -/
theorem call_keeps {evidenceId : Str} {record : EvidenceRecord PyDateTime}
    (call : EvidenceCall) (clean : call.Clean store)
    (present : store.table evidenceId = some record) :
    (InMemoryEvidenceStore.call call store).2.table evidenceId = some record := by
  cases call with
  | get _ => exact present
  | commit fields =>
      rw [call_commit]
      cases outcome : store.commit fields with
      | error _ => exact present
      | ok result =>
          obtain ⟨digested, -, -, table⟩ := commit_ok outcome
          obtain ⟨free, -⟩ := clean (EvidenceFields.digestible_iff.mp ⟨_, digested⟩)
          have other : evidenceId ≠ fields.evidenceId := by
            rintro rfl
            cases free.symm.trans present
          exact ((congrFun table _).trans (Function.update_of_ne other ..)).trans present

/-- The in-memory store loses nothing as long as every call meets the condition. -/
theorem appendOnly {calls : List EvidenceCall}
    (clean : Component.Throughout call EvidenceCall.Clean .empty calls) :
    AppendOnly call .empty calls where
  rejected := fun _ _ _ _ _ raised => call_rejected raised
  kept := by
    intro earlier fields further later record split returned
    have present := call_committed returned
    rw [split, Component.throughout_append, Component.throughout_append] at clean
    have remains := clean.1.2.2.keeps
      (fun store => store.table fields.evidenceId = some record)
      (fun call _ met => call_keeps call met) present
    refine ⟨record, ?_, .refl record⟩
    rw [Component.after_append]
    exact congrArg Except.ok remains

end InMemoryEvidenceStore

namespace SQLiteEvidenceStore

variable {store : SQLiteEvidenceStore}

theorem call_rejected {fields : EvidenceFields PyDateTime} {reason : PyError}
    (rejected : (call (.commit fields) store).1 = .error reason) :
    (call (.commit fields) store).2 = store := by
  rw [call_commit] at rejected ⊢
  exact settle_raised rejected

/-- A committed record is stored with its timestamp in UTC. -/
theorem call_committed {fields : EvidenceFields PyDateTime} {record : EvidenceRecord PyDateTime}
    (returned : (call (.commit fields) store).1 = .ok (some record)) :
    fields.Digestible store.tail ∧ record.committedAt = fields.committedAt ∧
      ∃ instant, Timestamp.toUtc record.committedAt = .ok instant ∧
        (call (.commit fields) store).2.table fields.evidenceId =
          some (record.dated (.utc instant)) := by
  rw [call_commit] at returned ⊢
  obtain ⟨⟨record', after⟩, committed, same⟩ := map_eq_ok.mp (settle_returned returned)
  obtain rfl : record' = record := Option.some.inj (Prod.mk.inj same).1
  obtain ⟨digested, named, -, -, instant, inUtc, table⟩ := commit_ok committed
  have committedAt : record'.committedAt = fields.committedAt := by rw [named]
  rw [committed]
  exact ⟨EvidenceFields.digestible_iff.mp ⟨_, digested⟩, committedAt, instant,
    by rw [committedAt, inUtc], (congrFun table _).trans (Function.update_self ..)⟩

/-- No call replaces a record. -/
theorem call_keeps {evidenceId : Str} {record : EvidenceRecord} (call : EvidenceCall)
    (present : store.table evidenceId = some record) :
    (SQLiteEvidenceStore.call call store).2.table evidenceId = some record := by
  cases call with
  | get _ => exact present
  | commit fields =>
      rw [call_commit]
      cases outcome : store.commit fields with
      | error _ => exact present
      | ok result =>
          obtain ⟨_, _, _, free, _, _, table⟩ := commit_ok outcome
          have other : evidenceId ≠ fields.evidenceId := by
            rintro rfl
            cases free.symm.trans present
          exact ((congrFun table _).trans (Function.update_of_ne other ..)).trans present

/-- The SQLite store loses nothing as long as every call meets the condition. -/
theorem appendOnly {calls : List EvidenceCall}
    (clean : Component.Throughout InMemoryEvidenceStore.call EvidenceCall.Clean .empty calls) :
    AppendOnly call .empty calls where
  rejected := fun _ _ _ _ _ raised => call_rejected raised
  kept := by
    intro earlier fields further later record split returned
    rw [split, Component.throughout_append, Component.throughout_append] at clean
    have same := related_after (fun call _ _ related => related.kept call)
      SameEvidenceTable.empty clean.1.1
    obtain ⟨digestible, committedAt, instant, inUtc, present⟩ := call_committed returned
    rw [← same.tail] at digestible
    obtain ⟨-, -, absolute⟩ := clean.1.2.1 digestible
    rw [← committedAt] at absolute
    have always : Component.Throughout call (fun _ _ => True)
        (call (.commit fields) (Component.after call .empty earlier)).2 further :=
      Component.throughout_of_forall (fun _ _ => trivial) further
    have remains := always.keeps
      (fun store => store.table fields.evidenceId = some (record.dated (.utc instant)))
      (fun call _ _ => call_keeps call) present
    refine ⟨_, ?_, (EvidenceRecord.inUtc_equal_iff inUtc).mpr absolute⟩
    rw [Component.after_append]
    exact call_get remains

end SQLiteEvidenceStore

/-- The two evidence stores answer a sequence of calls alike, lose nothing that a commit has
returned and keep a rejected commit without effect, exactly if every call meets the condition
in the store that it finds. -/
theorem evidenceStores_interchangeable_iff (calls : List EvidenceCall) :
    InterchangeableEvidence calls ↔
      Component.Throughout InMemoryEvidenceStore.call EvidenceCall.Clean .empty calls := by
  constructor
  · intro interchangeable
    -- Up to a call the stores hold one table, so its answers and the read after it decide.
    apply Component.throughout_of_earlier
    rintro earlier call later rfl clean
    have same := related_after (fun call _ _ related => related.kept call)
      SameEvidenceTable.empty clean
    refine same.clean_of_alike call (alike_at interchangeable.alike) ?_
    rintro fields record rfl returned
    have found := interchangeable.sqlite.kept earlier fields [] later record (by simp) returned
    rwa [Component.after_append] at found
  · intro clean
    exact ⟨forall₂_answers (fun call _ _ related => related.alike call)
      (fun call _ _ related => related.kept call) SameEvidenceTable.empty clean,
      InMemoryEvidenceStore.appendOnly clean, SQLiteEvidenceStore.appendOnly clean⟩

end

/-- Two decisions committed under one identifier. -/
def repeatedIdentifier : List EvidenceCall :=
  [.commit {
      evidenceId := "evidence-000000000001"
      candidateActId := "net-39f8820b-reference"
      decisionId := "nvd-000000000001"
      decision := "DENY"
      committedAt := .aware (.utc ⟨63900000002000000, by decide⟩) false
      protectedStateReference := "net-ped-state-7801"
      monotonicCounter := 184992 },
    .commit {
      evidenceId := "evidence-000000000001"
      candidateActId := "net-39f8820b-reference"
      decisionId := "nvd-000000000002"
      decision := "ALLOW"
      committedAt := .aware (.utc ⟨63900000003000000, by decide⟩) false
      protectedStateReference := "net-ped-state-7801"
      monotonicCounter := 184993 }]

/-- The in-memory store takes both, and the SQLite store refuses the second. -/
theorem repeatedIdentifier_not_interchangeable :
    ¬ @InterchangeableEvidence .checksum .utc repeatedIdentifier := by
  intro interchangeable
  have returned := SameOutcome.map_isOk (@InterchangeableEvidence.alike .checksum .utc _ interchangeable)
  revert returned
  decide +kernel

end NetworkFinality
