import Mathlib.Data.List.Forall2
import Mathlib.Data.List.Induction
import Mathlib.Logic.Function.Basic

/-!
# Components in lockstep

A component answers calls one after the other. Two components that are asked the same calls
answer alike throughout exactly when each call meets the condition under which they do, if
meeting it keeps their states related. The states are often tables, related entry by entry.
-/

namespace NetworkFinality.Semantics

variable {C A B S T : Type}

/-- A component answers a call and moves on. -/
abbrev Component (C A S : Type) := C → S → A × S

namespace Component

/-- The state after a sequence of calls. -/
def after (component : Component C A S) (state : S) : List C → S
  | [] => state
  | call :: rest => component.after (component call state).2 rest

/-- The answers to a sequence of calls. -/
def answers (component : Component C A S) (state : S) : List C → List A
  | [] => []
  | call :: rest => (component call state).1 :: component.answers (component call state).2 rest

/-- Each call meets a condition in the state it finds. -/
def Throughout (component : Component C A S) (clean : C → S → Prop) (state : S) : List C → Prop
  | [] => True
  | call :: rest => clean call state ∧ component.Throughout clean (component call state).2 rest

variable {component : Component C A S} {clean : C → S → Prop} {state : S}

theorem after_append (component : Component C A S) (state : S) (earlier later : List C) :
    component.after state (earlier ++ later) =
      component.after (component.after state earlier) later := by
  induction earlier generalizing state with
  | nil => rfl
  | cons call rest inductionHypothesis => exact inductionHypothesis _

theorem throughout_append {earlier later : List C} :
    component.Throughout clean state (earlier ++ later) ↔
      component.Throughout clean state earlier ∧
        component.Throughout clean (component.after state earlier) later := by
  induction earlier generalizing state with
  | nil => exact (iff_of_eq (true_and _)).symm
  | cons call rest inductionHypothesis =>
      rw [List.cons_append, Throughout, inductionHypothesis, Throughout, and_assoc]
      rfl

/-- A condition that every call meets in every state is met throughout. -/
theorem throughout_of_forall (met : ∀ call state, clean call state) (calls : List C) :
    component.Throughout clean state calls := by
  induction calls generalizing state with
  | nil => trivial
  | cons call rest inductionHypothesis => exact ⟨met call state, inductionHypothesis⟩

/-- A condition that each call meets if all calls before it do is met throughout. -/
theorem throughout_of_earlier {calls : List C}
    (met : ∀ earlier call later, calls = earlier ++ call :: later →
      component.Throughout clean state earlier → clean call (component.after state earlier)) :
    component.Throughout clean state calls := by
  induction calls using List.reverseRecOn with
  | nil => trivial
  | append_singleton calls last inductionHypothesis =>
      have before : component.Throughout clean state calls := by
        apply inductionHypothesis
        intro earlier call later split throughout
        exact met earlier call (later ++ [last]) (by simp [split]) throughout
      exact throughout_append.mpr ⟨before, met calls last [] rfl before, trivial⟩

/-- What each call keeps holds in the end. -/
theorem Throughout.keeps {calls : List C} (holds : S → Prop)
    (step : ∀ call state, clean call state → holds state → holds (component call state).2)
    (throughout : component.Throughout clean state calls) (before : holds state) :
    holds (component.after state calls) := by
  induction calls generalizing state with
  | nil => exact before
  | cons call rest inductionHypothesis =>
      exact inductionHypothesis throughout.2 (step call state throughout.1 before)

end Component

open Component

variable {left : Component C A S} {right : Component C B T} {same : A → B → Prop}
  {related : S → T → Prop} {clean : C → S → Prop} {state : S} {state' : T}

/-- Related states stay related as long as each call keeps them so. -/
theorem related_after {calls : List C}
    (kept : ∀ call state state', related state state' → clean call state →
      related (left call state).2 (right call state').2)
    (before : related state state') (throughout : left.Throughout clean state calls) :
    related (left.after state calls) (right.after state' calls) := by
  induction calls generalizing state state' with
  | nil => exact before
  | cons call rest inductionHypothesis =>
      exact inductionHypothesis (kept call state state' before throughout.1) throughout.2

/-- Components that answer alike answer each call alike. -/
theorem alike_at {earlier later : List C} {call : C}
    (alike : List.Forall₂ same (left.answers state (earlier ++ call :: later))
      (right.answers state' (earlier ++ call :: later))) :
    same (left call (left.after state earlier)).1 (right call (right.after state' earlier)).1 := by
  induction earlier generalizing state state' with
  | nil => exact (List.forall₂_cons.mp alike).1
  | cons first rest inductionHypothesis =>
      exact inductionHypothesis (List.forall₂_cons.mp alike).2

/-- Two components answer alike as long as each call meets a condition that makes them
answer it alike. -/
theorem forall₂_answers {calls : List C}
    (alike : ∀ call state state', related state state' → clean call state →
      same (left call state).1 (right call state').1)
    (kept : ∀ call state state', related state state' → clean call state →
      related (left call state).2 (right call state').2)
    (before : related state state') (throughout : left.Throughout clean state calls) :
    List.Forall₂ same (left.answers state calls) (right.answers state' calls) := by
  induction calls generalizing state state' with
  | nil => exact .nil
  | cons call rest inductionHypothesis =>
      obtain ⟨met, others⟩ := throughout
      exact .cons (alike call state state' before met)
        (inductionHypothesis (kept call state state' before met) others)

/-- Two components answer alike exactly as long as each call meets the condition that makes
them answer it alike. -/
theorem forall₂_answers_iff {calls : List C}
    (exact : ∀ call state state', related state state' →
      (same (left call state).1 (right call state').1 ↔ clean call state))
    (kept : ∀ call state state', related state state' → clean call state →
      related (left call state).2 (right call state').2)
    (before : related state state') :
    List.Forall₂ same (left.answers state calls) (right.answers state' calls) ↔
      left.Throughout clean state calls := by
  constructor
  · intro alike
    -- Past calls that meet the condition the states are still related.
    apply throughout_of_earlier
    rintro earlier call later rfl throughout
    exact (exact call _ _ (related_after kept before throughout)).mp (alike_at alike)
  · exact forall₂_answers (fun call state state' related => (exact call state state' related).mpr)
      kept before

/-! ### Outcomes -/

/-- Both calls reject, or both return and the values are related. -/
inductive SameOutcome {ε : Type} (values : A → B → Prop) : Except ε A → Except ε B → Prop where
  | ok {value : A} {value' : B} (same : values value value') :
      SameOutcome values (.ok value) (.ok value')
  | error {reason reason' : ε} : SameOutcome values (.error reason) (.error reason')

namespace SameOutcome

variable {ε : Type} {values : A → B → Prop} {outcome : Except ε A} {outcome' : Except ε B}

theorem returned {value : A} (alike : SameOutcome values (.ok value) outcome') :
    ∃ value', outcome' = .ok value' ∧ values value value' := by
  cases alike with
  | ok same => exact ⟨_, rfl, same⟩

theorem error_iff (alike : SameOutcome values outcome outcome') :
    (∃ reason, outcome = .error reason) ↔ ∃ reason, outcome' = .error reason := by
  cases alike with
  | ok same => simp
  | error => simp

/-- The same calls return. -/
theorem map_isOk {outcomes : List (Except ε A)} {outcomes' : List (Except ε B)}
    (alike : List.Forall₂ (SameOutcome values) outcomes outcomes') :
    outcomes.map (·.isOk) = outcomes'.map (·.isOk) := by
  induction alike with
  | nil => rfl
  | cons same _ inductionHypothesis =>
      cases same <;> rw [List.map_cons, List.map_cons, inductionHypothesis] <;> rfl

end SameOutcome

/-! ### Tables -/

variable {K : Type}

/-- The two tables have entries under the same keys, and these are related. -/
def TableRel (entries : A → B → Prop) (left : K → Option A) (right : K → Option B) : Prop :=
  ∀ key, Option.Rel entries (left key) (right key)

namespace TableRel

variable {entries : A → B → Prop} {left : K → Option A} {right : K → Option B} {key : K}

theorem found (tables : TableRel entries left right) {entry : A} (present : left key = some entry) :
    ∃ entry', right key = some entry' ∧ entries entry entry' := by
  have related := tables key
  rw [present] at related
  generalize right key = found at related
  cases related with
  | some same => exact ⟨_, rfl, same⟩

theorem found' (tables : TableRel entries left right) {entry' : B}
    (present : right key = some entry') : ∃ entry, left key = some entry ∧ entries entry entry' := by
  have related := tables key
  rw [present] at related
  generalize left key = found at related
  cases related with
  | some same => exact ⟨_, rfl, same⟩

theorem eq_none_iff (tables : TableRel entries left right) : left key = none ↔ right key = none := by
  have related := tables key
  generalize left key = found at related ⊢
  generalize right key = found' at related ⊢
  cases related with
  | some same => simp
  | none => simp

/-- Both tables take a related entry under one key. -/
theorem update [DecidableEq K] (tables : TableRel entries left right) {entry : A} {entry' : B}
    (same : entries entry entry') : TableRel entries (Function.update left key (some entry))
      (Function.update right key (some entry')) := by
  intro other
  by_cases here : other = key
  · subst here
    rw [Function.update_self, Function.update_self]
    exact .some same
  · rw [Function.update_of_ne here, Function.update_of_ne here]
    exact tables other

end TableRel
end NetworkFinality.Semantics
