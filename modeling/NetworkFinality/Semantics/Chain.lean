import Mathlib.Data.List.Forall2
import Mathlib.Data.List.Induction

/-!
# Linked chains

Records in a list are linked when each one names the digest of the record before
it, and the first one names a start value. A chain grows only at its tail: a
record that names the tail's digest extends the chain, and nothing else does.
-/

namespace NetworkFinality.Semantics

variable {R D : Type}

/-- Each record names the digest before it, beginning with `start`. -/
inductive Linked (previous digest : R → D) : D → List R → Prop where
  | empty {start : D} : Linked previous digest start []
  | next {start : D} {record : R} {rest : List R} (names : previous record = start)
      (linked : Linked previous digest (digest record) rest) :
      Linked previous digest start (record :: rest)

theorem linked_cons {previous digest : R → D} {start : D} {record : R} {rest : List R} :
    Linked previous digest start (record :: rest) ↔
      previous record = start ∧ Linked previous digest (digest record) rest := by
  constructor
  · intro linked
    cases linked with
    | next names linked => exact ⟨names, linked⟩
  · rintro ⟨names, linked⟩
    exact .next names linked

/-- The digest of the last record, or the start of an empty chain. -/
def tailDigest (digest : R → D) (start : D) (records : List R) : D :=
  (records.getLast?.map digest).getD start

@[simp] theorem tailDigest_nil (digest : R → D) (start : D) : tailDigest digest start [] = start := rfl

@[simp] theorem tailDigest_append (digest : R → D) (start : D) (records : List R) (record : R) :
    tailDigest digest start (records ++ [record]) = digest record := by
  simp [tailDigest]

theorem tailDigest_cons (digest : R → D) (start : D) (record : R) (rest : List R) :
    tailDigest digest start (record :: rest) = tailDigest digest (digest record) rest := by
  cases rest with
  | nil => rfl
  | cons next rest =>
      have last := List.getLast?_eq_some_getLast (List.cons_ne_nil next rest)
      simp only [tailDigest, List.getLast?_cons_cons, last, Option.map_some, Option.getD_some]

/-- A record extends a chain exactly when it names the digest of the tail. -/
theorem linked_append {previous digest : R → D} {start : D} {records : List R} {record : R} :
    Linked previous digest start (records ++ [record]) ↔
      Linked previous digest start records ∧ previous record = tailDigest digest start records := by
  induction records generalizing start with
  | nil => simp [linked_cons, Linked.empty]
  | cons first rest inductionHypothesis =>
      rw [List.cons_append, linked_cons, linked_cons, inductionHypothesis, tailDigest_cons,
        and_assoc]

/-- The first record of a chain names its start. -/
theorem Linked.first {previous digest : R → D} {start : D} {records : List R}
    (linked : Linked previous digest start records) {record : R}
    (head : records.head? = some record) : previous record = start := by
  cases linked with
  | empty => cases head
  | next names _ =>
      obtain rfl := Option.some.inj head
      exact names

/-- Every later record of a chain names its predecessor's digest. -/
theorem Linked.successor {previous digest : R → D} {start : D} {records : List R}
    (linked : Linked previous digest start records) {position : Nat} {record next : R}
    (here : records[position]? = some record) (after : records[position + 1]? = some next) :
    previous next = digest record := by
  induction linked generalizing position with
  | empty => cases here
  | next _ linked inductionHypothesis =>
      rw [List.getElem?_cons_succ] at after
      cases position with
      | zero =>
          obtain rfl := Option.some.inj here
          exact linked.first (by rw [List.head?_eq_getElem?, after])
      | succ position => exact inductionHypothesis here after

/-- Two chains with one tail are the same chain, if equal digests belong to records that
agree and no digest is the start. -/
theorem forall₂_of_tailDigest {previous digest : R → D} {related : R → R → Prop} {start : D}
    {records records' : List R} (linked : Linked previous digest start records)
    (linked' : Linked previous digest start records')
    (agree : ∀ record ∈ records, ∀ record' ∈ records', digest record = digest record' →
      related record record' ∧ previous record = previous record')
    (fresh : ∀ record ∈ records, digest record ≠ start)
    (fresh' : ∀ record ∈ records', digest record ≠ start)
    (same : tailDigest digest start records = tailDigest digest start records') :
    List.Forall₂ related records records' := by
  -- The chains are walked back from their tails, and reach the start together.
  induction records using List.reverseRecOn generalizing records' with
  | nil =>
      rcases List.eq_nil_or_concat records' with rfl | ⟨earlier', last', rfl⟩
      · exact .nil
      · rw [List.concat_eq_append, tailDigest_append, tailDigest_nil] at same
        exact absurd same.symm (fresh' last' (by simp))
  | append_singleton earlier last inductionHypothesis =>
      rcases List.eq_nil_or_concat records' with rfl | ⟨earlier', last', rfl⟩
      · rw [tailDigest_append, tailDigest_nil] at same
        exact absurd same (fresh last (by simp))
      · rw [List.concat_eq_append] at linked' agree fresh' same ⊢
        rw [tailDigest_append, tailDigest_append] at same
        obtain ⟨linked, names⟩ := linked_append.mp linked
        obtain ⟨linked', names'⟩ := linked_append.mp linked'
        obtain ⟨related, before⟩ := agree last (by simp) last' (by simp) same
        refine List.rel_append (inductionHypothesis linked linked' ?_ ?_ ?_ ?_) (.cons related .nil)
        · intro record member record' member'
          exact agree record (List.mem_append_left _ member) record' (List.mem_append_left _ member')
        · exact fun record member => fresh record (List.mem_append_left _ member)
        · exact fun record member => fresh' record (List.mem_append_left _ member)
        · rw [← names, ← names', before]

end NetworkFinality.Semantics
