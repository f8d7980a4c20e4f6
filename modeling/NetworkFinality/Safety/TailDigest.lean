import NetworkFinality.Safety.EvidenceChain
import NetworkFinality.Spec.Binding
import NetworkFinality.Spec.DigestText

/-!
# The tail commits to the history

Two evidence stores with one tail hold one history. The body of a record says all of
its fields and the digest before it, so records with one digest agree, and so do the
digests they name. Walking back from the tails, the chains stay together until both
reach the genesis marker, which no digest is equal to.
-/

namespace NetworkFinality

open Python Semantics Value

/-! ### What a digest binds -/

theorem EvidenceFields.body_plain (fields : EvidenceFields) (previousDigest : Str) :
    (fields.body previousDigest).Plain := by
  refine .dict ?_ ?_ ?_
  · simp [field]
  · simp [field, Str.ofString_inj]
  · simp [field, Plain.datetime]

/-- Two bodies agree when their fields do, and they name one digest. -/
theorem EvidenceFields.body_agree {left right : EvidenceFields} {previous previous' : Str} :
    (left.body previous).Agree (right.body previous') ↔
      { left with committedAt := right.committedAt } = right ∧
        (∃ time, left.committedAt.toUtc = .ok time ∧ right.committedAt.toUtc = .ok time) ∧
        previous = previous' := by
  simp only [EvidenceFields.body]
  rw [agree_record]
  · cases left
    cases right
    simp [field, agree_datetime]
    tauto
  · rfl
  · simp [field]
  · simp [field, Str.ofString_inj]

section

variable [Hashlib]

/-- The genesis marker is shorter than every digest. -/
theorem EvidenceFields.bodyDigest_ne_genesis {fields : EvidenceFields} {previous digest : Str}
    (digested : fields.bodyDigest previous = .ok digest) : digest ≠ genesis := by
  rintro rfl
  have length := length_digestValue digested
  cases length

/-- The byte strings that are hashed for some records. -/
def hashedBytes (records : List EvidenceRecord) : List Bytes :=
  records.filterMap fun record =>
    (canonicalJsonBytes (record.toEvidenceFields.body record.previousDigest)).toOption

/-- SHA-256 has no collision among the byte strings. -/
abbrev Sha256Injective (strings : List Bytes) : Prop :=
  ∀ left ∈ strings, ∀ right ∈ strings,
    hashBytes left .sha256 = hashBytes right .sha256 → left = right

omit [Hashlib] in
theorem mem_hashedBytes {records : List EvidenceRecord} {record : EvidenceRecord} {bytes : Bytes}
    (member : record ∈ records)
    (canonical : canonicalJsonBytes (record.toEvidenceFields.body record.previousDigest) =
      .ok bytes) : bytes ∈ hashedBytes records :=
  List.mem_filterMap.mpr ⟨record, member, by rw [canonical]; rfl⟩

/-- Records with one digest are one record, and name one digest, if SHA-256 has no
collision on their bytes. -/
theorem sameInstant_of_digest {records records' : List EvidenceRecord}
    (injective : Sha256Injective (hashedBytes records ++ hashedBytes records'))
    {left right : EvidenceRecord} (member : left ∈ records) (member' : right ∈ records')
    (digested : left.toEvidenceFields.bodyDigest left.previousDigest = .ok left.digest)
    (digested' : right.toEvidenceFields.bodyDigest right.previousDigest = .ok right.digest)
    (same : left.digest = right.digest) :
    left.SameInstant right ∧ left.previousDigest = right.previousDigest := by
  rw [EvidenceFields.bodyDigest_aware] at digested digested'
  obtain ⟨bytes, canonical, text⟩ := digestValue_ok.mp digested
  obtain ⟨bytes', canonical', text'⟩ := digestValue_ok.mp digested'
  have hashes := b64url_injective (text.trans (same.trans text'.symm))
  obtain rfl := injective bytes (List.mem_append_left _ (mem_hashedBytes member canonical)) bytes'
    (List.mem_append_right _ (mem_hashedBytes member' canonical')) hashes
  have bodies := agree_of_canonicalJsonBytes (EvidenceFields.body_plain _ _)
    (EvidenceFields.body_plain _ _) canonical canonical'
  obtain ⟨fields, instant, previous⟩ := EvidenceFields.body_agree.mp bodies
  refine ⟨⟨?_, instant⟩, previous⟩
  calc { left with committedAt := right.committedAt }
    _ = ⟨{ left.toEvidenceFields with committedAt := right.committedAt }, left.previousDigest,
          left.digest⟩ := rfl
    _ = ⟨right.toEvidenceFields, right.previousDigest, right.digest⟩ := by
          rw [fields, previous, same]

/-- Two sequences of operations on empty stores that end in records of one digest have
committed one history, if SHA-256 has no collision on the bytes that it hashed. -/
theorem tail_commits_to_history (left right : EvidenceStore)
    (leftEmpty : left = .inMemory .empty ∨ left = .sqlite .empty)
    (rightEmpty : right = .inMemory .empty ∨ right = .sqlite .empty) (ops ops' : List EvidenceOp)
    (injective : Sha256Injective (hashedBytes (left.run ops).2 ++ hashedBytes (right.run ops').2))
    (same : tailDigest EvidenceRecord.digest genesis (left.run ops).2 =
      tailDigest EvidenceRecord.digest genesis (right.run ops').2) :
    (left.run ops).2.length = (right.run ops').2.length ∧
      List.Forall₂ EvidenceRecord.SameInstant (left.run ops).2 (right.run ops').2 := by
  have start {store : EvidenceStore} (empty : store = .inMemory .empty ∨ store = .sqlite .empty) :
      EvidenceStore.Sealed store [] := by
    apply EvidenceStore.Sealed.empty
    rcases empty with rfl | rfl <;> rfl
  obtain ⟨linked, -, digests⟩ : EvidenceStore.Sealed (left.run ops).1 (left.run ops).2 :=
    (start leftEmpty).run
  obtain ⟨linked', -, digests'⟩ : EvidenceStore.Sealed (right.run ops').1 (right.run ops').2 :=
    (start rightEmpty).run
  have history := forall₂_of_tailDigest linked linked'
    (fun record member record' member' => sameInstant_of_digest injective member member'
      (digests record member) (digests' record' member'))
    (fun record member => EvidenceFields.bodyDigest_ne_genesis (digests record member))
    (fun record member => EvidenceFields.bodyDigest_ne_genesis (digests' record member)) same
  exact ⟨history.length_eq, history⟩

end

/-- The timestamp in UTC, where it has one. -/
def Python.AwareDateTime.inUtc (time : AwareDateTime) : AwareDateTime :=
  match time.toUtc with
  | .ok instant => .utc instant
  | .error _ => time

/-- The commits of `twoCommits`, with their timestamps in UTC. -/
def twoCommitsUtc : List EvidenceOp :=
  twoCommits.map fun
    | .commit fields => .commit { fields with committedAt := fields.committedAt.inUtc }
    | op => op

theorem tail_commits_twoCommits :
    List.Forall₂ EvidenceRecord.SameInstant
      (@EvidenceStore.run .checksum (.inMemory .empty) twoCommits).2
      (@EvidenceStore.run .checksum (.sqlite .empty) twoCommitsUtc).2 :=
  (@tail_commits_to_history .checksum (.inMemory .empty) (.sqlite .empty) (.inl rfl) (.inr rfl)
    twoCommits twoCommitsUtc (by decide +kernel) (by decide +kernel)).2

end NetworkFinality
