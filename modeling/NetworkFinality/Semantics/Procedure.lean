import Mathlib.Tactic.Tauto

/-!
# Procedures over atomic operations

A procedure is a finite tree of atomic operations. Each operation receives an
answer, and the answer selects the rest of the procedure. One tree has two
readings: `run` answers every operation from one state, without interference,
and `Path` leaves every answer open, so that a scheduler may interleave other
procedures between any two operations.

`Returns` and `Exits` describe the answers that lead to a leaf. They are
computed by `simp` along the tree, which turns a procedure into the conditions
its answers have met.
-/

namespace NetworkFinality.Semantics

/-- The atomic operations a procedure may perform, with the answer type of each. -/
structure Interface where
  Op : Type
  Answer : Op → Type

/-- One performed operation and the answer it received. -/
structure Event (I : Interface) where
  op : I.Op
  answer : I.Answer op

/-- How a state answers an operation, and the state it leaves. -/
abbrev Handler (I : Interface) (S : Type) := (op : I.Op) → S → I.Answer op × S

/-- A procedure ends with a value, leaves early with a reason, or performs an
atomic operation and continues with its answer. -/
inductive Procedure (I : Interface) (ε α : Type) where
  | done (value : α)
  | exit (reason : ε)
  | call (op : I.Op) (next : I.Answer op → Procedure I ε α)

namespace Procedure

variable {I : Interface} {ε ε' α β S : Type}

/-- Sequential composition; an early exit skips what follows. -/
def bind : Procedure I ε α → (α → Procedure I ε β) → Procedure I ε β
  | .done value, rest => rest value
  | .exit reason, _ => .exit reason
  | .call op next, rest => .call op fun answer => (next answer).bind rest

instance : Monad (Procedure I ε) where
  pure := .done
  bind := Procedure.bind

/-- Perform one operation and return its answer. -/
def perform (op : I.Op) : Procedure I ε (I.Answer op) := .call op .done

/-- Leave with `reason` when the condition holds, and continue otherwise. -/
def exitIf (condition : Prop) [Decidable condition] (reason : ε) : Procedure I ε Unit :=
  if condition then .exit reason else .done ()

/-- Continue with the value of a fallible computation, or leave with its error. -/
def ofExcept : Except ε α → Procedure I ε α
  | .ok value => .done value
  | .error reason => .exit reason

/-- Turn an early exit into a value the caller inspects. -/
def attempt : Procedure I ε α → Procedure I ε' (Except ε α)
  | .done value => .done (.ok value)
  | .exit reason => .done (.error reason)
  | .call op next => .call op fun answer => (next answer).attempt

@[simp] theorem done_bind (value : α) (rest : α → Procedure I ε β) :
    (Procedure.done value >>= rest) = rest value := rfl

@[simp] theorem exit_bind (reason : ε) (rest : α → Procedure I ε β) :
    ((Procedure.exit reason : Procedure I ε α) >>= rest) = .exit reason := rfl

@[simp] theorem call_bind (op : I.Op) (next : I.Answer op → Procedure I ε α)
    (rest : α → Procedure I ε β) :
    (Procedure.call op next >>= rest) = .call op fun answer => next answer >>= rest := rfl

@[simp] theorem pure_eq_done (value : α) : (pure value : Procedure I ε α) = .done value := rfl

theorem bind_assoc {γ : Type} (p : Procedure I ε α) (first : α → Procedure I ε β)
    (second : β → Procedure I ε γ) :
    (p >>= first >>= second) = p >>= fun value => first value >>= second := by
  induction p with
  | done value => rfl
  | exit reason => rfl
  | call op next inductionHypothesis => exact congrArg (call op) (funext inductionHypothesis)

theorem exitIf_pos {condition : Prop} [Decidable condition] (holds : condition) (reason : ε) :
    (exitIf condition reason : Procedure I ε Unit) = .exit reason := if_pos holds

theorem exitIf_neg {condition : Prop} [Decidable condition] (fails : ¬ condition) (reason : ε) :
    (exitIf condition reason : Procedure I ε Unit) = .done () := if_neg fails

/-! ### Paths -/

/-- `p.Path past q`: answering the operations of `p` by the events `past`, in
order, leaves `q` to be done. -/
inductive Path : Procedure I ε α → List (Event I) → Procedure I ε α → Prop where
  | here {p} : Path p [] p
  | next {op next answer past q} (rest : Path (next answer) past q) :
      Path (.call op next) (⟨op, answer⟩ :: past) q

/-- Paths that meet compose. -/
theorem Path.trans {p q r : Procedure I ε α} {first second : List (Event I)}
    (start : p.Path first q) (rest : q.Path second r) : p.Path (first ++ second) r := by
  induction start with
  | here => exact rest
  | next _ inductionHypothesis => exact .next (inductionHypothesis rest)

/-- A path extends by the operation its end is about to perform. -/
theorem Path.snoc {p : Procedure I ε α} {past : List (Event I)} {op : I.Op}
    {next : I.Answer op → Procedure I ε α} (start : p.Path past (.call op next))
    (answer : I.Answer op) : p.Path (past ++ [⟨op, answer⟩]) (next answer) :=
  start.trans (.next .here)

theorem path_done_iff {value : α} {past : List (Event I)} {q : Procedure I ε α} :
    (Procedure.done value).Path past q ↔ past = [] ∧ q = .done value := by
  constructor
  · intro path
    cases path
    exact ⟨rfl, rfl⟩
  · rintro ⟨rfl, rfl⟩
    exact .here

theorem path_exit_iff {reason : ε} {past : List (Event I)} {q : Procedure I ε α} :
    (Procedure.exit reason : Procedure I ε α).Path past q ↔ past = [] ∧ q = .exit reason := by
  constructor
  · intro path
    cases path
    exact ⟨rfl, rfl⟩
  · rintro ⟨rfl, rfl⟩
    exact .here

theorem path_call_iff {op : I.Op} {next : I.Answer op → Procedure I ε α}
    {past : List (Event I)} {q : Procedure I ε α} :
    (Procedure.call op next).Path past q ↔
      (past = [] ∧ q = .call op next) ∨
        ∃ answer rest, past = ⟨op, answer⟩ :: rest ∧ (next answer).Path rest q := by
  constructor
  · intro path
    cases path with
    | here => exact .inl ⟨rfl, rfl⟩
    | next rest => exact .inr ⟨_, _, rfl, rest⟩
  · rintro (⟨rfl, rfl⟩ | ⟨answer, rest, rfl, path⟩)
    · exact .here
    · exact .next path

/-- A path that is not at its end starts with the operation of its first event. -/
theorem path_cons_call {p q : Procedure I ε α} {event : Event I} {past : List (Event I)}
    (path : p.Path (event :: past) q) : ∃ next, p = .call event.op next := by
  cases path with
  | next rest => exact ⟨_, rfl⟩

/-- The answers `past` lead the procedure to the value. -/
def Returns (p : Procedure I ε α) (past : List (Event I)) (value : α) : Prop :=
  p.Path past (.done value)

/-- The answers `past` lead the procedure to the early exit. -/
def Exits (p : Procedure I ε α) (past : List (Event I)) (reason : ε) : Prop :=
  p.Path past (.exit reason)

@[simp] theorem returns_done {value result : α} {past : List (Event I)} :
    (Procedure.done value : Procedure I ε α).Returns past result ↔ past = [] ∧ result = value := by
  simp [Returns, path_done_iff]

@[simp] theorem returns_exit {reason : ε} {result : α} {past : List (Event I)} :
    ¬ (Procedure.exit reason : Procedure I ε α).Returns past result := by
  simp [Returns, path_exit_iff]

@[simp] theorem returns_call {op : I.Op} {next : I.Answer op → Procedure I ε α} {result : α}
    {past : List (Event I)} :
    (Procedure.call op next).Returns past result ↔
      ∃ answer rest, past = ⟨op, answer⟩ :: rest ∧ (next answer).Returns rest result := by
  simp [Returns, path_call_iff]

@[simp] theorem returns_perform {op : I.Op} {result : I.Answer op} {past : List (Event I)} :
    (perform op : Procedure I ε (I.Answer op)).Returns past result ↔ past = [⟨op, result⟩] := by
  constructor
  · intro returned
    obtain ⟨answer, rest, rfl, rfl, rfl⟩ := returns_call.mp returned
    rfl
  · rintro rfl
    exact .next .here

@[simp] theorem returns_exitIf {condition : Prop} [Decidable condition] {reason : ε}
    {result : Unit} {past : List (Event I)} :
    (exitIf condition reason : Procedure I ε Unit).Returns past result ↔
      ¬ condition ∧ past = [] := by
  by_cases holds : condition <;> simp [exitIf, holds]

@[simp] theorem returns_ofExcept {outcome : Except ε α} {result : α} {past : List (Event I)} :
    (ofExcept outcome : Procedure I ε α).Returns past result ↔ outcome = .ok result ∧ past = [] := by
  cases outcome <;> simp [ofExcept, eq_comm, and_comm]

@[simp] theorem returns_ite {condition : Prop} [Decidable condition] {p q : Procedure I ε α}
    {result : α} {past : List (Event I)} :
    (if condition then p else q).Returns past result ↔
      (condition ∧ p.Returns past result) ∨ (¬ condition ∧ q.Returns past result) := by
  by_cases holds : condition <;> simp [holds]

/-- A path through a composition either stops inside the first part or completes
it and continues in the second. -/
theorem path_bind {p : Procedure I ε α} {rest : α → Procedure I ε β} {past : List (Event I)}
    {q : Procedure I ε β} (path : (p >>= rest).Path past q) :
    (∃ q', p.Path past q' ∧ q = (q' >>= rest) ∧ ∀ value, q' ≠ .done value) ∨
      ∃ value first second, p.Returns first value ∧ (rest value).Path second q ∧
        past = first ++ second := by
  induction p generalizing past with
  | done value => exact .inr ⟨value, [], past, .here, path, rfl⟩
  | exit reason =>
      rw [exit_bind, path_exit_iff] at path
      exact .inl ⟨.exit reason, by rw [path.1]; exact .here, path.2, by simp⟩
  | call op next inductionHypothesis =>
      rw [call_bind, path_call_iff] at path
      rcases path with ⟨rfl, rfl⟩ | ⟨answer, tail, rfl, path⟩
      · exact .inl ⟨.call op next, .here, rfl, by simp⟩
      · rcases inductionHypothesis answer path with
          ⟨q', inner, rfl, unfinished⟩ | ⟨value, first, second, returned, continued, rfl⟩
        · exact .inl ⟨q', .next inner, rfl, unfinished⟩
        · exact .inr ⟨value, ⟨op, answer⟩ :: first, second, .next returned, continued, rfl⟩

/-- A path of the first part is a path of the composition. -/
theorem Path.bind {p q : Procedure I ε α} {past : List (Event I)} (path : p.Path past q)
    (rest : α → Procedure I ε β) : (p >>= rest).Path past (q >>= rest) := by
  induction path with
  | here => exact .here
  | next _ inductionHypothesis => exact .next inductionHypothesis

/-- A composition returns exactly when both parts do. -/
@[simp] theorem returns_bind {p : Procedure I ε α} {rest : α → Procedure I ε β} {result : β}
    {past : List (Event I)} :
    (p >>= rest).Returns past result ↔
      ∃ value first second, p.Returns first value ∧ (rest value).Returns second result ∧
        past = first ++ second := by
  constructor
  · intro returned
    rcases path_bind returned with ⟨q', path, equal, unfinished⟩ | completed
    · cases q' with
      | done value => exact absurd rfl (unfinished value)
      | exit reason => cases equal
      | call op next => cases equal
    · exact completed
  · rintro ⟨value, first, second, returned, continued, rfl⟩
    exact (Path.bind returned rest).trans continued

@[simp 1100] theorem returns_exitIf_bind {condition : Prop} [Decidable condition] {reason : ε}
    {rest : Unit → Procedure I ε α} {result : α} {past : List (Event I)} :
    (exitIf condition reason >>= rest).Returns past result ↔
      ¬ condition ∧ (rest ()).Returns past result := by
  by_cases holds : condition <;> simp [exitIf, holds]

/-- A caught procedure returns the value or the reason the procedure ends with. -/
@[simp] theorem returns_attempt {p : Procedure I ε α} {past : List (Event I)}
    {result : Except ε α} :
    (p.attempt : Procedure I ε' (Except ε α)).Returns past result ↔
      match result with
      | .ok value => p.Returns past value
      | .error reason => p.Exits past reason := by
  induction p generalizing past with
  | done value => cases result <;> simp [attempt, Exits, path_done_iff]
  | exit reason => cases result <;> simp [attempt, Exits, path_exit_iff]
  | call op next inductionHypothesis =>
      simp only [attempt, returns_call, inductionHypothesis]
      cases result <;> simp [Exits, path_call_iff]

/-! ### Operations a procedure may perform -/

/-- Every operation the procedure may perform, under any answers, is permitted. -/
inductive Uses (permitted : I.Op → Prop) : Procedure I ε α → Prop where
  | done (value : α) : Uses permitted (.done value)
  | exit (reason : ε) : Uses permitted (.exit reason)
  | call {op : I.Op} {next : I.Answer op → Procedure I ε α} (first : permitted op)
      (further : ∀ answer, Uses permitted (next answer)) : Uses permitted (.call op next)

@[simp] theorem uses_call {permitted : I.Op → Prop} {op : I.Op}
    {next : I.Answer op → Procedure I ε α} :
    (Procedure.call op next).Uses permitted ↔
      permitted op ∧ ∀ answer, (next answer).Uses permitted := by
  constructor
  · rintro ⟨⟩
    exact ⟨‹_›, ‹_›⟩
  · rintro ⟨first, further⟩
    exact .call first further

@[simp] theorem uses_done {permitted : I.Op → Prop} {value : α} :
    (Procedure.done value : Procedure I ε α).Uses permitted := .done value

@[simp] theorem uses_exit {permitted : I.Op → Prop} {reason : ε} :
    (Procedure.exit reason : Procedure I ε α).Uses permitted := .exit reason

@[simp] theorem uses_perform {permitted : I.Op → Prop} {op : I.Op} :
    (perform op : Procedure I ε (I.Answer op)).Uses permitted ↔ permitted op := by
  simp [perform]

@[simp] theorem uses_exitIf {permitted : I.Op → Prop} {condition : Prop} [Decidable condition]
    {reason : ε} : (exitIf condition reason : Procedure I ε Unit).Uses permitted := by
  by_cases holds : condition <;> simp [exitIf, holds]

@[simp] theorem uses_ofExcept {permitted : I.Op → Prop} {outcome : Except ε α} :
    (ofExcept outcome : Procedure I ε α).Uses permitted := by
  cases outcome <;> simp [ofExcept]

theorem Uses.bind {permitted : I.Op → Prop} {p : Procedure I ε α} {rest : α → Procedure I ε β}
    (first : p.Uses permitted) (second : ∀ value, (rest value).Uses permitted) :
    (p >>= rest).Uses permitted := by
  induction first with
  | done value => exact second value
  | exit reason => exact .exit reason
  | call first _ inductionHypothesis => exact .call first inductionHypothesis

/-- What follows may depend on what the first part has returned. -/
theorem Uses.bind_returns {permitted : I.Op → Prop} {p : Procedure I ε α}
    {rest : α → Procedure I ε β} (first : p.Uses permitted)
    (second : ∀ past value, p.Returns past value → (rest value).Uses permitted) :
    (p >>= rest).Uses permitted := by
  induction first with
  | done value => exact second [] value .here
  | exit reason => exact .exit reason
  | call first _ inductionHypothesis =>
      refine .call first fun answer => inductionHypothesis answer fun past value returned => ?_
      exact second _ value (.next returned)

theorem Uses.attempt {permitted : I.Op → Prop} {p : Procedure I ε α} (uses : p.Uses permitted) :
    (p.attempt : Procedure I ε' (Except ε α)).Uses permitted := by
  induction uses with
  | done value => exact .done _
  | exit reason => exact .done _
  | call first _ inductionHypothesis => exact .call first inductionHypothesis

/-- What remains of a procedure performs nothing new. -/
theorem Uses.remains {permitted : I.Op → Prop} {p q : Procedure I ε α} {past : List (Event I)}
    (uses : p.Uses permitted) (path : p.Path past q) : q.Uses permitted := by
  induction path with
  | here => exact uses
  | next _ inductionHypothesis => exact inductionHypothesis ((uses_call.mp uses).2 _)

/-- The events of a path are permitted operations. -/
theorem Uses.events {permitted : I.Op → Prop} {p q : Procedure I ε α} {past : List (Event I)}
    (uses : p.Uses permitted) (path : p.Path past q) : ∀ event ∈ past, permitted event.op := by
  induction path with
  | here => simp
  | next _ inductionHypothesis =>
      obtain ⟨first, further⟩ := uses_call.mp uses
      intro event member
      rcases List.mem_cons.mp member with rfl | member
      · exact first
      · exact inductionHypothesis (further _) event member

theorem Uses.mono {permitted wider : I.Op → Prop} {p : Procedure I ε α} (uses : p.Uses permitted)
    (allows : ∀ op, permitted op → wider op) : p.Uses wider := by
  induction uses with
  | done value => exact .done value
  | exit reason => exact .exit reason
  | call first _ inductionHypothesis => exact .call (allows _ first) inductionHypothesis

/-- An operation that the first part of a composition does not use shows that the
first part has completed. -/
theorem path_bind_of_event {permitted : I.Op → Prop} {p : Procedure I ε α}
    {rest : α → Procedure I ε β} {past : List (Event I)} {q : Procedure I ε β} {event : Event I}
    (uses : p.Uses permitted) (path : (p >>= rest).Path past q) (performed : event ∈ past)
    (foreign : ¬ permitted event.op) :
    ∃ value first second, p.Returns first value ∧ (rest value).Path second q ∧
      past = first ++ second ∧ event ∈ second := by
  rcases path_bind path with ⟨q', inside, -, -⟩ | ⟨value, first, second, returned, later, rfl⟩
  · exact absurd (uses.events inside event performed) foreign
  · refine ⟨value, first, second, returned, later, rfl, ?_⟩
    rcases List.mem_append.mp performed with early | late
    · exact absurd (uses.events returned event early) foreign
    · exact late

/-- The same for an operation that the composition is about to perform. -/
theorem path_bind_of_call {permitted : I.Op → Prop} {p : Procedure I ε α}
    {rest : α → Procedure I ε β} {past : List (Event I)} {op : I.Op}
    {next : I.Answer op → Procedure I ε β} (uses : p.Uses permitted)
    (path : (p >>= rest).Path past (.call op next)) (foreign : ¬ permitted op) :
    ∃ value first second, p.Returns first value ∧ (rest value).Path second (.call op next) ∧
      past = first ++ second := by
  rcases path_bind path with ⟨q', inside, equal, unfinished⟩ | completed
  · cases q' with
    | done value => exact absurd rfl (unfinished value)
    | exit reason => cases equal
    | call op' next' =>
        obtain ⟨rfl, -⟩ := Procedure.call.inj equal
        exact absurd (uses_call.mp (uses.remains inside)).1 foreign
  · exact completed

/-- A path splits between any two of its events. -/
theorem Path.split {p q : Procedure I ε α} {first second : List (Event I)}
    (path : p.Path (first ++ second) q) : ∃ middle, p.Path first middle ∧ middle.Path second q := by
  induction first generalizing p with
  | nil => exact ⟨p, .here, path⟩
  | cons event first inductionHypothesis =>
      cases path with
      | next rest =>
          obtain ⟨middle, before, after⟩ := inductionHypothesis rest
          exact ⟨middle, .next before, after⟩

/-- At most one operation of the procedure is a `key` operation, under any answers. -/
inductive Single (key : I.Op → Prop) : Procedure I ε α → Prop where
  | none {p : Procedure I ε α} (quiet : p.Uses fun op => ¬ key op) : Single key p
  | now {op : I.Op} {next : I.Answer op → Procedure I ε α}
      (quiet : ∀ answer, (next answer).Uses fun op => ¬ key op) : Single key (.call op next)
  | later {op : I.Op} {next : I.Answer op → Procedure I ε α} (other : ¬ key op)
      (further : ∀ answer, Single key (next answer)) : Single key (.call op next)

theorem Single.perform {key : I.Op → Prop} {op : I.Op} :
    (perform op : Procedure I ε (I.Answer op)).Single key := .now fun _ => uses_done

/-- A single part before a quiet one. -/
theorem Single.bind {key : I.Op → Prop} {p : Procedure I ε α} {rest : α → Procedure I ε β}
    (first : p.Single key) (quiet : ∀ value, (rest value).Uses fun op => ¬ key op) :
    (p >>= rest).Single key := by
  induction first with
  | none silent => exact .none (silent.bind quiet)
  | now silent => exact .now fun answer => (silent answer).bind quiet
  | later other _ inductionHypothesis => exact .later other inductionHypothesis

/-- A quiet part before a single one. -/
theorem Uses.bind_single {key : I.Op → Prop} {p : Procedure I ε α} {rest : α → Procedure I ε β}
    (quiet : p.Uses fun op => ¬ key op) (second : ∀ value, (rest value).Single key) :
    (p >>= rest).Single key := by
  induction quiet with
  | done value => exact second value
  | exit reason => exact .none uses_exit
  | call other _ inductionHypothesis => exact .later other inductionHypothesis

/-- Around a `key` event of a path there is no other. -/
theorem Single.around {key : I.Op → Prop} {p q : Procedure I ε α} {past : List (Event I)}
    (single : p.Single key) (path : p.Path past q) {before after : List (Event I)}
    {event : Event I} (split : past = before ++ event :: after) (isKey : key event.op) :
    (∀ other ∈ before, ¬ key other.op) ∧ ∀ other ∈ after, ¬ key other.op := by
  induction path generalizing before with
  | here => simp at split
  | @next op next answer past q rest inductionHypothesis =>
      cases single with
      | none quiet =>
          have performed : event ∈ (⟨op, answer⟩ :: past : List (Event I)) := by simp [split]
          exact absurd isKey (quiet.events (.next rest) event performed)
      | now quiet =>
          have alone := (quiet answer).events rest
          cases before with
          | nil =>
              obtain ⟨-, rfl⟩ := List.cons.inj split
              exact ⟨by simp, alone⟩
          | cons first before =>
              obtain ⟨-, rfl⟩ := List.cons.inj split
              exact absurd isKey (alone event (by simp))
      | later other further =>
          cases before with
          | nil =>
              obtain ⟨rfl, -⟩ := List.cons.inj split
              exact absurd isKey other
          | cons first before =>
              obtain ⟨rfl, shorter⟩ := List.cons.inj split
              obtain ⟨early, late⟩ := inductionHypothesis (further answer) shorter
              refine ⟨fun event member => ?_, late⟩
              rcases List.mem_cons.mp member with rfl | member
              · exact other
              · exact early event member

/-- Two `key` events of one path are the same event. -/
theorem Single.unique {key : I.Op → Prop} {p q : Procedure I ε α} {past : List (Event I)}
    (single : p.Single key) (path : p.Path past q) {first second : Event I}
    (performed : first ∈ past) (performed' : second ∈ past) (isKey : key first.op)
    (isKey' : key second.op) : first = second := by
  obtain ⟨before, after, rfl⟩ := List.append_of_mem performed
  obtain ⟨early, late⟩ := single.around path rfl isKey
  rcases List.mem_append.mp performed' with member | member
  · exact absurd isKey' (early second member)
  · rcases List.mem_cons.mp member with rfl | member
    · rfl
    · exact absurd isKey' (late second member)

/-- The procedure may still perform `op`, under some answers. -/
def MayPerform (p : Procedure I ε α) (op : I.Op) : Prop :=
  ∃ past next, p.Path past (.call op next)

theorem MayPerform.earlier {p q : Procedure I ε α} {past : List (Event I)} {op : I.Op}
    (may : q.MayPerform op) (path : p.Path past q) : p.MayPerform op := by
  obtain ⟨rest, next, reach⟩ := may
  exact ⟨past ++ rest, next, path.trans reach⟩

/-! ### Reasons a procedure may leave with -/

/-- Every early exit of the procedure, under any answers, has a permitted reason. -/
inductive Leaves (permitted : ε → Prop) : Procedure I ε α → Prop where
  | done (value : α) : Leaves permitted (.done value)
  | exit {reason : ε} (allowed : permitted reason) : Leaves permitted (.exit reason)
  | call {op : I.Op} {next : I.Answer op → Procedure I ε α}
      (further : ∀ answer, Leaves permitted (next answer)) : Leaves permitted (.call op next)

theorem leaves_perform {permitted : ε → Prop} {op : I.Op} :
    (perform op : Procedure I ε (I.Answer op)).Leaves permitted := .call .done

theorem leaves_exitIf {permitted : ε → Prop} {condition : Prop} [Decidable condition] {reason : ε}
    (allowed : permitted reason) :
    (exitIf condition reason : Procedure I ε Unit).Leaves permitted := by
  by_cases holds : condition
  · rw [exitIf_pos holds]
    exact .exit allowed
  · rw [exitIf_neg holds]
    exact .done ()

theorem Leaves.bind {permitted : ε → Prop} {p : Procedure I ε α} {rest : α → Procedure I ε β}
    (first : p.Leaves permitted) (second : ∀ value, (rest value).Leaves permitted) :
    (p >>= rest).Leaves permitted := by
  induction first with
  | done value => exact second value
  | exit allowed => exact .exit allowed
  | call _ inductionHypothesis => exact .call inductionHypothesis

theorem Leaves.mono {permitted wider : ε → Prop} {p : Procedure I ε α} (leaves : p.Leaves permitted)
    (weaker : ∀ reason, permitted reason → wider reason) : p.Leaves wider := by
  induction leaves with
  | done value => exact .done value
  | exit allowed => exact .exit (weaker _ allowed)
  | call _ inductionHypothesis => exact .call inductionHypothesis

/-- The reason a procedure leaves with is permitted. -/
theorem Leaves.reason {permitted : ε → Prop} {p : Procedure I ε α} {past : List (Event I)}
    {reason : ε} (leaves : p.Leaves permitted) (left : p.Exits past reason) : permitted reason := by
  induction leaves generalizing past with
  | done value => cases left
  | exit allowed =>
      cases left
      exact allowed
  | call _ inductionHypothesis =>
      cases left with
      | next rest => exact inductionHypothesis _ rest

/-! ### Uninterrupted runs -/

variable (handler : Handler I S)

/-- Run the whole procedure from one state, with nothing in between. -/
def run : Procedure I ε α → S → Except ε α × S
  | .done value, state => (.ok value, state)
  | .exit reason, state => (.error reason, state)
  | .call op next, state => (next (handler op state).1).run (handler op state).2

/-- The events are the answers the handler gives one after the other. -/
def Answered : S → List (Event I) → S → Prop
  | state, [], final => final = state
  | state, event :: past, final =>
      event.answer = (handler event.op state).1 ∧
        Answered (handler event.op state).2 past final

theorem answered_append {state final : S} {first second : List (Event I)} :
    Answered handler state (first ++ second) final ↔
      ∃ middle, Answered handler state first middle ∧ Answered handler middle second final := by
  induction first generalizing state with
  | nil => simp [Answered]
  | cons event past inductionHypothesis => simp [Answered, inductionHypothesis, and_assoc]

/-- What none of the events undoes still holds after them. -/
theorem Answered.keeps {state final : S} {past : List (Event I)}
    (answered : Answered handler state past final) (kept : S → Prop)
    (keeps : ∀ event ∈ past, ∀ state, kept state → kept (handler event.op state).2)
    (before : kept state) : kept final := by
  induction past generalizing state with
  | nil =>
      obtain rfl : final = state := answered
      exact before
  | cons event past inductionHypothesis =>
      obtain ⟨-, tail⟩ := answered
      exact inductionHypothesis tail (fun other member => keeps other (by simp [member]))
        (keeps event (by simp) state before)

/-- Each event was answered in some state. -/
theorem Answered.event {state final : S} {past : List (Event I)}
    (answered : Answered handler state past final) {event : Event I} (performed : event ∈ past) :
    ∃ state, event.answer = (handler event.op state).1 := by
  obtain ⟨before, after, rfl⟩ := List.append_of_mem performed
  obtain ⟨middle, -, answer, -⟩ := (answered_append handler).mp answered
  exact ⟨middle, answer⟩

/-- The state after the operations of some events. -/
def replay (state : S) (past : List (Event I)) : S :=
  past.foldl (fun state event => (handler event.op state).2) state

/-- Answered operations leave the state that performing them again leaves. -/
theorem Answered.final {state final : S} {past : List (Event I)}
    (answered : Answered handler state past final) : final = replay handler state past := by
  induction past generalizing state with
  | nil => exact answered
  | cons event past inductionHypothesis => exact inductionHypothesis answered.2

/-- The events of an uninterrupted run. -/
def trace : Procedure I ε α → S → List (Event I)
  | .done _, _ => []
  | .exit _, _ => []
  | .call op next, state =>
      ⟨op, (handler op state).1⟩ :: (next (handler op state).1).trace (handler op state).2

/-- The procedure that has ended with an outcome. -/
def ended : Except ε α → Procedure I ε α
  | .ok value => .done value
  | .error reason => .exit reason

@[simp] theorem ended_eq_done {outcome : Except ε α} {value : α} :
    (ended outcome : Procedure I ε α) = .done value ↔ outcome = .ok value := by
  cases outcome <;> simp [ended]

@[simp] theorem ended_eq_exit {outcome : Except ε α} {reason : ε} :
    (ended outcome : Procedure I ε α) = .exit reason ↔ outcome = .error reason := by
  cases outcome <;> simp [ended]

/-- A run is a path to its outcome. -/
theorem trace_path (p : Procedure I ε α) (state : S) :
    p.Path (p.trace handler state) (ended (p.run handler state).1) := by
  induction p generalizing state with
  | done value => exact .here
  | exit reason => exact .here
  | call op next inductionHypothesis => exact .next (inductionHypothesis _ _)

/-- The answers along a run are those of the handler. -/
theorem trace_answered (p : Procedure I ε α) (state : S) :
    Answered handler state (p.trace handler state) (p.run handler state).2 := by
  induction p generalizing state with
  | done value => rfl
  | exit reason => rfl
  | call op next inductionHypothesis => exact ⟨rfl, inductionHypothesis _ _⟩

/-- A run passes every point that the handler's answers lead to. -/
theorem run_of_path {p q : Procedure I ε α} {past : List (Event I)} (path : p.Path past q)
    {state middle : S} (answered : Answered handler state past middle) :
    p.run handler state = q.run handler middle := by
  induction path generalizing state with
  | here =>
      obtain rfl : middle = state := answered
      rfl
  | @next op step answer past q _ inductionHypothesis =>
      obtain ⟨head, tail⟩ := answered
      obtain rfl : answer = (handler op state).1 := head
      exact inductionHypothesis tail

/-- A run returns a value exactly when the handler's answers lead to it. -/
theorem run_ok_iff {p : Procedure I ε α} {state final : S} {value : α} :
    p.run handler state = (.ok value, final) ↔
      ∃ past, p.Returns past value ∧ Answered handler state past final := by
  constructor
  · intro ran
    refine ⟨p.trace handler state, ?_, ?_⟩
    · have path := trace_path handler p state
      rwa [ran] at path
    · have answered := trace_answered handler p state
      rwa [ran] at answered
  · rintro ⟨past, returned, answered⟩
    exact run_of_path handler returned answered

@[simp] theorem run_done (value : α) (state : S) :
    (Procedure.done value : Procedure I ε α).run handler state = (.ok value, state) := rfl

@[simp] theorem run_exit (reason : ε) (state : S) :
    (Procedure.exit reason : Procedure I ε α).run handler state = (.error reason, state) := rfl

@[simp] theorem run_call (op : I.Op) (next : I.Answer op → Procedure I ε α) (state : S) :
    (Procedure.call op next).run handler state =
      (next (handler op state).1).run handler (handler op state).2 := rfl

/-- An attempt runs as the procedure does, and returns its outcome. -/
theorem run_attempt {ε' : Type} (p : Procedure I ε α) (state : S) :
    (p.attempt : Procedure I ε' (Except ε α)).run handler state =
      (.ok (p.run handler state).1, (p.run handler state).2) := by
  induction p generalizing state with
  | done value => rfl
  | exit reason => rfl
  | call op next inductionHypothesis => exact inductionHypothesis _ _

/-- A composition runs to a value exactly when its parts do, one after the other. -/
theorem run_bind_ok {p : Procedure I ε α} {rest : α → Procedure I ε β} {state final : S}
    {result : β} : (p >>= rest).run handler state = (.ok result, final) ↔
      ∃ value middle, p.run handler state = (.ok value, middle) ∧
        (rest value).run handler middle = (.ok result, final) := by
  induction p generalizing state with
  | done value =>
      constructor
      · exact fun ran => ⟨value, state, rfl, ran⟩
      · rintro ⟨_, _, ⟨⟩, ran⟩
        exact ran
  | exit reason => simp
  | call op next inductionHypothesis => simpa using inductionHypothesis _

theorem exitIf_bind {condition : Prop} [Decidable condition] {reason : ε}
    {rest : Unit → Procedure I ε β} :
    (exitIf condition reason >>= rest) = if condition then .exit reason else rest () := by
  by_cases holds : condition <;> simp [exitIf, holds]

theorem run_exitIf_ok {condition : Prop} [Decidable condition] {reason : ε} {state final : S}
    {result : Unit} : (exitIf condition reason : Procedure I ε Unit).run handler state =
      (.ok result, final) ↔ ¬ condition ∧ final = state := by
  by_cases holds : condition <;> simp [exitIf, holds, eq_comm]

theorem run_unless_ok {condition : Prop} [Decidable condition] {reason : ε}
    {rest : Procedure I ε β} {state final : S} {result : β} :
    (if condition then .exit reason else rest).run handler state = (.ok result, final) ↔
      ¬ condition ∧ rest.run handler state = (.ok result, final) := by
  by_cases holds : condition <;> simp [holds]

/-- What no permitted operation undoes, a run does not undo. -/
theorem run_keeps (kept : S → Prop) {permitted : I.Op → Prop}
    (keeps : ∀ op, permitted op → ∀ state, kept state → kept (handler op state).2)
    {p : Procedure I ε α} (uses : p.Uses permitted) {state : S} (before : kept state) :
    kept (p.run handler state).2 := by
  induction uses generalizing state with
  | done value => exact before
  | exit reason => exact before
  | call first _ inductionHypothesis => exact inductionHypothesis _ (keeps _ first state before)

/-- Two states that the operations of a procedure do not tell apart end its runs alike. -/
theorem run_related (related : S → S → Prop) {permitted : I.Op → Prop}
    (alike : ∀ op, permitted op → ∀ left right, related left right →
      (handler op left).1 = (handler op right).1 ∧
        related (handler op left).2 (handler op right).2)
    {p : Procedure I ε α} (uses : p.Uses permitted) {left right : S} (before : related left right) :
    (p.run handler left).1 = (p.run handler right).1 ∧
      related (p.run handler left).2 (p.run handler right).2 := by
  induction uses generalizing left right with
  | done value => exact ⟨rfl, before⟩
  | exit reason => exact ⟨rfl, before⟩
  | @call op next first _ inductionHypothesis =>
      obtain ⟨same, after⟩ := alike op first left right before
      simp only [run]
      rw [same]
      exact inductionHypothesis _ after

/-- A composition goes on from the value and the state of its first part. -/
theorem run_bind (p : Procedure I ε α) (rest : α → Procedure I ε β) (state : S) :
    (p >>= rest).run handler state =
      match p.run handler state with
      | (.ok value, middle) => (rest value).run handler middle
      | (.error reason, middle) => (.error reason, middle) := by
  induction p generalizing state with
  | done value => rfl
  | exit reason => rfl
  | call op next inductionHypothesis => exact inductionHypothesis _ _

/-- An operation that leaves every state as it is. -/
def ReadOnly (op : I.Op) : Prop := ∀ state, (handler op state).2 = state

/-- Read-only operations leave the state, and their answers are its own. -/
theorem answered_readOnly {state final : S} {past : List (Event I)}
    (reads : ∀ event ∈ past, ReadOnly handler event.op) :
    Answered handler state past final ↔
      final = state ∧ ∀ event ∈ past, event.answer = (handler event.op state).1 := by
  induction past generalizing state with
  | nil => simp [Answered]
  | cons event past inductionHypothesis =>
      have others : ∀ other ∈ past, ReadOnly handler other.op :=
        fun other member => reads other (by simp [member])
      rw [Answered, reads event (by simp) state, inductionHypothesis others, List.forall_mem_cons]
      tauto

/-- A procedure of read-only operations leaves the state as it is. -/
theorem run_readOnly {p : Procedure I ε α} (reads : p.Uses (ReadOnly handler)) (state : S) :
    (p.run handler state).2 = state := by
  refine run_keeps handler (fun after => after = state) ?_ reads rfl
  intro op read after same
  rw [read after, same]

end Procedure
end NetworkFinality.Semantics
