import Mathlib.Data.Finset.Card
import Mathlib.Data.Finset.Insert

/-!
# Requests that take keys

Requests are processed one after the other. A request that takes a key is accepted if
the key is still free, and refused if another request has taken it. Which key a request
takes does not depend on what was taken before, so the keys that are taken in the end,
and how many requests are accepted, are the same in whatever order the requests come:
the first request for each key is accepted, and no other.
-/

namespace NetworkFinality.Semantics

variable {R S O K : Type}

/-- Process requests one after the other, and pair each with its outcome. -/
def process (step : R → S → O × S) : List R → S → List (R × O) × S
  | [], state => ([], state)
  | request :: requests, state =>
      let (outcome, next) := step request state
      let (outcomes, final) := process step requests next
      ((request, outcome) :: outcomes, final)

section

variable {step : R → S → O × S}

@[simp] theorem process_nil (state : S) : process step [] state = ([], state) := rfl

@[simp] theorem process_cons (request : R) (requests : List R) (state : S) :
    process step (request :: requests) state =
      ((request, (step request state).1) :: (process step requests (step request state).2).1,
        (process step requests (step request state).2).2) := rfl

end

/-- What a request takes if it is free. `reached requests taken state` says that the keys
have been taken in the state and the requests are still to come. -/
structure Takes (step : R → S → O × S) (accepts : O → Bool) (takes : R → Option K)
    [DecidableEq K] (reached : List R → Finset K → S → Prop) : Prop where
  granted : ∀ {request requests taken state key}, reached (request :: requests) taken state →
    takes request = some key → key ∉ taken →
    accepts (step request state).1 = true ∧
      reached requests (insert key taken) (step request state).2
  refused : ∀ {request requests taken state}, reached (request :: requests) taken state →
    (∀ key, takes request = some key → key ∈ taken) →
    accepts (step request state).1 = false ∧ reached requests taken (step request state).2

namespace Takes

variable [DecidableEq K] {step : R → S → O × S} {accepts : O → Bool} {takes : R → Option K}
  {reached : List R → Finset K → S → Prop}

/-- The keys that requests take. -/
def keys (takes : R → Option K) (requests : List R) : Finset K :=
  (requests.filterMap takes).toFinset

theorem mem_keys {requests : List R} {key : K} :
    key ∈ keys takes requests ↔ ∃ request ∈ requests, takes request = some key := by
  simp [keys]

@[simp] theorem keys_nil : keys takes [] = ∅ := rfl

theorem keys_cons_some {request : R} {requests : List R} {key : K}
    (takes_key : takes request = some key) :
    keys takes (request :: requests) = insert key (keys takes requests) := by
  simp [keys, List.filterMap_cons_some takes_key]

theorem keys_cons_none {request : R} {requests : List R} (takes_none : takes request = none) :
    keys takes (request :: requests) = keys takes requests := by
  simp [keys, List.filterMap_cons_none takes_none]

variable (taking : Takes step accepts takes reached) {requests : List R} {taken : Finset K}
  {state : S}

include taking

/-- Either a request takes a key that was free, or it takes none. -/
theorem step_cases {request : R} (here : reached (request :: requests) taken state) :
    (∃ key, takes request = some key ∧ key ∉ taken ∧ accepts (step request state).1 = true ∧
        reached requests (insert key taken) (step request state).2) ∨
      ((∀ key, takes request = some key → key ∈ taken) ∧ accepts (step request state).1 = false ∧
        reached requests taken (step request state).2) := by
  by_cases blocked : ∀ key, takes request = some key → key ∈ taken
  · exact .inr ⟨blocked, taking.refused here blocked⟩
  · obtain ⟨key, free⟩ := not_forall.mp blocked
    obtain ⟨takes_key, free⟩ := Classical.not_imp.mp free
    exact .inl ⟨key, takes_key, free, taking.granted here takes_key free⟩

/-- In the end exactly the keys that some request takes have been taken. -/
theorem reached_process (here : reached requests taken state) :
    reached [] (taken ∪ keys takes requests) (process step requests state).2 := by
  induction requests generalizing taken state with
  | nil => simpa using here
  | cons request requests inductionHypothesis =>
      rw [process_cons]
      rcases taking.step_cases here with
        ⟨key, takes_key, -, -, next⟩ | ⟨blocked, -, next⟩
      · have final := inductionHypothesis next
        rwa [Finset.insert_union, ← Finset.union_insert, ← keys_cons_some takes_key] at final
      · have final := inductionHypothesis next
        cases wanted : takes request with
        | none => rwa [← keys_cons_none wanted] at final
        | some key =>
            have present := blocked key wanted
            rw [keys_cons_some wanted, Finset.union_insert,
              Finset.insert_eq_of_mem (Finset.mem_union_left _ present)]
            exact final

/-- An outcome was answered in a state in which the keys of the requests before it have
been taken. -/
theorem outcome_reached (here : reached requests taken state) {request : R} {outcome : O}
    (answered : (request, outcome) ∈ (process step requests state).1) :
    ∃ before after later, requests = before ++ request :: after ∧
      reached (request :: after) (taken ∪ keys takes before) later ∧
      outcome = (step request later).1 := by
  induction requests generalizing taken state with
  | nil => cases answered
  | cons first requests inductionHypothesis =>
      rw [process_cons] at answered
      rcases List.mem_cons.mp answered with same | rest
      · obtain ⟨rfl, rfl⟩ := Prod.mk.inj same
        exact ⟨[], requests, state, rfl, by simpa using here, rfl⟩
      · rcases taking.step_cases here with
          ⟨key, takes_key, -, -, next⟩ | ⟨blocked, -, next⟩
        · obtain ⟨before, after, later, rfl, there, same⟩ := inductionHypothesis next rest
          refine ⟨first :: before, after, later, rfl, ?_, same⟩
          rwa [Finset.insert_union, ← Finset.union_insert, ← keys_cons_some takes_key] at there
        · obtain ⟨before, after, later, rfl, there, same⟩ := inductionHypothesis next rest
          refine ⟨first :: before, after, later, rfl, ?_, same⟩
          cases wanted : takes first with
          | none => rwa [keys_cons_none wanted]
          | some key =>
              have present := blocked key wanted
              rwa [keys_cons_some wanted, Finset.union_insert,
                Finset.insert_eq_of_mem (Finset.mem_union_left _ present)]

/-- A request whose key is taken is not accepted any more. -/
theorem count_taken (here : reached requests taken state) {key : K} (present : key ∈ taken) :
    (process step requests state).1.countP
      (fun entry => takes entry.1 = some key ∧ accepts entry.2 = true) = 0 := by
  induction requests generalizing taken state with
  | nil => rfl
  | cons request requests inductionHypothesis =>
      rw [process_cons]
      rcases taking.step_cases here with
        ⟨other, takes_other, free, -, next⟩ | ⟨-, refused, next⟩
      · have different : other ≠ key := by
          rintro rfl
          exact free present
        rw [List.countP_cons_of_neg (by simp [takes_other, different])]
        exact inductionHypothesis next (Finset.mem_insert_of_mem present)
      · rw [List.countP_cons_of_neg (by simp [refused])]
        exact inductionHypothesis next present

/-- Exactly one request is accepted for a key that some request takes. -/
theorem count_accepted (here : reached requests taken state) {key : K} (free : key ∉ taken)
    (wanted : key ∈ keys takes requests) :
    (process step requests state).1.countP
      (fun entry => takes entry.1 = some key ∧ accepts entry.2 = true) = 1 := by
  induction requests generalizing taken state with
  | nil => simp at wanted
  | cons request requests inductionHypothesis =>
      rw [process_cons]
      rcases taking.step_cases here with
        ⟨other, takes_other, -, accepted, next⟩ | ⟨blocked, refused, next⟩
      · rw [keys_cons_some takes_other] at wanted
        by_cases same : other = key
        · subst same
          rw [List.countP_cons_of_pos (by simp [takes_other, accepted]),
            taking.count_taken next (Finset.mem_insert_self ..)]
        · rw [List.countP_cons_of_neg (by simp [takes_other, same])]
          refine inductionHypothesis next ?_ (Finset.mem_of_mem_insert_of_ne wanted (Ne.symm same))
          simp [Ne.symm same, free]
      · rw [List.countP_cons_of_neg (by simp [refused])]
        refine inductionHypothesis next free ?_
        obtain ⟨claimant, member, takes_key⟩ := mem_keys.mp wanted
        rcases List.mem_cons.mp member with rfl | later
        · exact absurd (blocked key takes_key) free
        · exact mem_keys.mpr ⟨claimant, later, takes_key⟩

/-- Whatever is accepted takes a key. -/
theorem takes_of_accepted (here : reached requests taken state) {request : R} {outcome : O}
    (answered : (request, outcome) ∈ (process step requests state).1)
    (accepted : accepts outcome = true) : ∃ key, takes request = some key := by
  obtain ⟨before, after, later, -, there, rfl⟩ := taking.outcome_reached here answered
  rcases taking.step_cases there with ⟨key, takes_key, -⟩ | ⟨-, refused, -⟩
  · exact ⟨key, takes_key⟩
  · rw [refused] at accepted
    cases accepted

end Takes
end NetworkFinality.Semantics
