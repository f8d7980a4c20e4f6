import Mathlib.Order.GameAdd
import NetworkFinality.Semantics.Pool

/-!
# Procedures under re-entrant locks

A locked procedure also takes and gives back locks between its operations. Which locks
a thread holds follows from what it has performed. A lock that another thread holds
cannot be taken, and that is all that locks do: without them a locked run is a run of
the plain procedures, so whatever holds of every plain run holds of every locked one.

A procedure is `Ordered` when it takes its locks in the order of a rank and holds none
at its end. Threads of ordered procedures never block each other for good.
-/

namespace NetworkFinality.Semantics

/-- A plain operation, or taking or giving back a lock. -/
inductive LockOp (I : Interface) (L : Type) where
  | plain (op : I.Op)
  | acquire (lock : L)
  | release (lock : L)

@[reducible] def LockOp.Answer {I : Interface} {L : Type} : LockOp I L → Type
  | .plain op => I.Answer op
  | .acquire _ => Unit
  | .release _ => Unit

/-- The operations of an interface, with locks. -/
@[reducible] def Interface.locked (I : Interface) (L : Type) : Interface :=
  ⟨LockOp I L, LockOp.Answer⟩

variable {I : Interface} {L C ε ε' α β S : Type}

/-- Locks leave the shared state as it is. -/
def lockedHandler (handler : Handler I S) : Handler (I.locked L) S
  | .plain op, state => handler op state
  | .acquire _, state => ((), state)
  | .release _, state => ((), state)

namespace Procedure

/-! ### Programs with locks -/

/-- `with lock: body`. The lock is given back however the body ends. -/
def withLock (lock : L) (body : Procedure (I.locked L) ε α) : Procedure (I.locked L) ε α :=
  .call (.acquire lock) fun _ =>
    body.attempt >>= fun outcome => .call (.release lock) fun _ => ended outcome

/-- One operation, under its own lock when it has one. -/
def guarded (lockOf : I.Op → Option L) (op : I.Op) : Procedure (I.locked L) ε (I.Answer op) :=
  match lockOf op with
  | none => perform (I := I.locked L) (.plain op)
  | some lock => withLock lock (perform (I := I.locked L) (.plain op))

/-- A plain procedure, each of whose operations takes its own lock when it has one. -/
def guardEach (lockOf : I.Op → Option L) : Procedure I ε α → Procedure (I.locked L) ε α
  | .done value => .done value
  | .exit reason => .exit reason
  | .call op next => guarded lockOf op >>= fun answer => (next answer).guardEach lockOf

/-- The procedure without its locks. -/
def unlocked : Procedure (I.locked L) ε α → Procedure I ε α
  | .done value => .done value
  | .exit reason => .exit reason
  | .call (.plain op) next => .call op fun answer => (next answer).unlocked
  | .call (.acquire _) next => (next ()).unlocked
  | .call (.release _) next => (next ()).unlocked

@[simp] theorem unlocked_done (value : α) :
    (Procedure.done value : Procedure (I.locked L) ε α).unlocked = .done value := rfl

@[simp] theorem unlocked_exit (reason : ε) :
    (Procedure.exit reason : Procedure (I.locked L) ε α).unlocked = .exit reason := rfl

@[simp] theorem unlocked_ended (outcome : Except ε α) :
    (ended outcome : Procedure (I.locked L) ε α).unlocked = ended outcome := by
  cases outcome <;> rfl

@[simp] theorem unlocked_bind (p : Procedure (I.locked L) ε α)
    (rest : α → Procedure (I.locked L) ε β) :
    (p >>= rest).unlocked = p.unlocked >>= fun value => (rest value).unlocked := by
  induction p with
  | done value => rfl
  | exit reason => rfl
  | call op next inductionHypothesis =>
      cases op with
      | plain op => exact congrArg (call op) (funext inductionHypothesis)
      | acquire lock => exact inductionHypothesis ()
      | release lock => exact inductionHypothesis ()

@[simp] theorem unlocked_attempt (p : Procedure (I.locked L) ε α) :
    (p.attempt : Procedure (I.locked L) ε' (Except ε α)).unlocked = p.unlocked.attempt := by
  induction p with
  | done value => rfl
  | exit reason => rfl
  | call op next inductionHypothesis =>
      cases op with
      | plain op => exact congrArg (call op) (funext inductionHypothesis)
      | acquire lock => exact inductionHypothesis ()
      | release lock => exact inductionHypothesis ()

/-- Catching an outcome and ending with it changes nothing. -/
theorem attempt_ended (p : Procedure I ε α) :
    ((p.attempt : Procedure I ε (Except ε α)) >>= ended) = p := by
  induction p with
  | done value => rfl
  | exit reason => rfl
  | call op next inductionHypothesis => exact congrArg (call op) (funext inductionHypothesis)

/-- Giving back a lock at the end changes nothing. -/
@[simp] theorem unlocked_releasing (lock : L) (q : Procedure (I.locked L) ε α) :
    (q.attempt >>= fun outcome => (.call (.release lock) fun _ => ended outcome :
      Procedure (I.locked L) ε α)).unlocked = q.unlocked := by
  rw [unlocked_bind, unlocked_attempt]
  simp only [unlocked, unlocked_ended]
  exact attempt_ended q.unlocked

@[simp] theorem unlocked_withLock (lock : L) (body : Procedure (I.locked L) ε α) :
    (withLock lock body).unlocked = body.unlocked :=
  unlocked_releasing lock body

@[simp] theorem unlocked_guarded (lockOf : I.Op → Option L) (op : I.Op) :
    (guarded lockOf op : Procedure (I.locked L) ε (I.Answer op)).unlocked = perform op := by
  unfold guarded
  cases lockOf op with
  | none => rfl
  | some lock => exact unlocked_withLock lock _

/-- Without its locks a guarded procedure is the plain one. -/
@[simp] theorem unlocked_guardEach (lockOf : I.Op → Option L) (p : Procedure I ε α) :
    (p.guardEach lockOf).unlocked = p := by
  induction p with
  | done value => rfl
  | exit reason => rfl
  | call op next inductionHypothesis =>
      rw [guardEach, unlocked_bind, unlocked_guarded]
      exact congrArg (call op) (funext inductionHypothesis)

/-- A guarded procedure performs plain operations and takes and gives back their locks. -/
theorem uses_guardEach {permitted : LockOp I L → Prop} {lockOf : I.Op → Option L}
    (p : Procedure I ε α) (plain : ∀ op, permitted (.plain op))
    (locks : ∀ op, ∀ lock ∈ lockOf op, permitted (.acquire lock) ∧ permitted (.release lock)) :
    (p.guardEach lockOf).Uses permitted := by
  induction p with
  | done value => exact .done value
  | exit reason => exact .exit reason
  | call op next inductionHypothesis =>
      refine Uses.bind ?_ inductionHypothesis
      unfold guarded
      split
      · exact .call (plain op) .done
      · rename_i lock owns
        obtain ⟨taken, given⟩ := locks op lock owns
        exact .call taken fun _ => .call (plain op) fun answer => .call given fun _ => .done _

/-- What is left of a caught procedure is what is left of it, caught. -/
theorem path_attempt {p : Procedure I ε α} {past : List (Event I)}
    {rest : Procedure I ε' (Except ε α)} (path : p.attempt.Path past rest) :
    ∃ q, p.Path past q ∧ rest = q.attempt := by
  induction p generalizing past with
  | done value =>
      obtain ⟨rfl, rfl⟩ := path_done_iff.mp path
      exact ⟨_, .here, rfl⟩
  | exit reason =>
      obtain ⟨rfl, rfl⟩ := path_done_iff.mp path
      exact ⟨_, .here, rfl⟩
  | call op next inductionHypothesis =>
      rcases path_call_iff.mp path with ⟨rfl, rfl⟩ | ⟨answer, tail, rfl, further⟩
      · exact ⟨_, .here, rfl⟩
      · obtain ⟨q, inner, rfl⟩ := inductionHypothesis answer further
        exact ⟨q, .next inner, rfl⟩

/-- A procedure under a lock has not started, works under the lock, or has ended and given
it back. -/
theorem path_withLock {lock : L} {body : Procedure (I.locked L) ε α}
    {past : List (Event (I.locked L))} {rest : Procedure (I.locked L) ε α}
    (path : (withLock lock body).Path past rest) :
    (past = [] ∧ rest = withLock lock body) ∨
      (∃ inner q, body.Path inner q ∧ past = ⟨.acquire lock, ()⟩ :: inner ∧
        rest = q.attempt >>= fun outcome => .call (.release lock) fun _ => ended outcome) ∨
      ∃ inner outcome, body.Path inner (ended outcome) ∧
        past = ⟨.acquire lock, ()⟩ :: (inner ++ [⟨.release lock, ()⟩]) ∧ rest = ended outcome := by
  rcases path_call_iff.mp path with ⟨rfl, rfl⟩ | ⟨_, tail, rfl, working⟩
  · exact .inl ⟨rfl, rfl⟩
  rcases path_bind working with
    ⟨q, caught, rfl, -⟩ | ⟨outcome, inner, second, returned, released, rfl⟩
  · obtain ⟨q, inner, rfl⟩ := path_attempt caught
    exact .inr (.inl ⟨tail, q, inner, rfl, rfl⟩)
  · have ends : body.Path inner (ended outcome) := by
      have leads := returns_attempt.mp returned
      cases outcome <;> exact leads
    rcases path_call_iff.mp released with ⟨rfl, rfl⟩ | ⟨_, tail, rfl, atEnd⟩
    · refine .inr (.inl ⟨inner, ended outcome, ends, by simp, ?_⟩)
      cases outcome <;> rfl
    · refine .inr (.inr ⟨inner, outcome, ends, ?_⟩)
      cases outcome with
      | ok value =>
          obtain ⟨rfl, rfl⟩ := path_done_iff.mp atEnd
          exact ⟨rfl, rfl⟩
      | error reason =>
          obtain ⟨rfl, rfl⟩ := path_exit_iff.mp atEnd
          exact ⟨rfl, rfl⟩

/-! ### Histories with locks -/

/-- The plain event, when it is one. -/
def plainEvent : Event (I.locked L) → Option (Event I)
  | ⟨.plain op, answer⟩ => some ⟨op, answer⟩
  | ⟨.acquire _, _⟩ => none
  | ⟨.release _, _⟩ => none

/-- The plain events of a history. -/
def plainEvents (past : List (Event (I.locked L))) : List (Event I) := past.filterMap plainEvent

@[simp] theorem plainEvents_nil : plainEvents ([] : List (Event (I.locked L))) = [] := rfl

@[simp] theorem plainEvents_append (first second : List (Event (I.locked L))) :
    plainEvents (first ++ second) = plainEvents first ++ plainEvents second :=
  List.filterMap_append

theorem plainEvents_cons (event : Event (I.locked L)) (past : List (Event (I.locked L))) :
    plainEvents (event :: past) = (plainEvent event).toList ++ plainEvents past := by
  rw [plainEvents, List.filterMap_cons]
  cases plainEvent event <;> rfl

@[simp] theorem mem_plainEvents {past : List (Event (I.locked L))} {event : Event I} :
    event ∈ plainEvents past ↔ (⟨.plain event.op, event.answer⟩ : Event (I.locked L)) ∈ past := by
  rw [plainEvents, List.mem_filterMap]
  constructor
  · rintro ⟨⟨op, answer⟩, performed, same⟩
    cases op with
    | plain op =>
        obtain rfl := Option.some.inj same
        exact performed
    | acquire lock => cases same
    | release lock => cases same
  · intro performed
    exact ⟨_, performed, rfl⟩

/-- A path with locks is a path without them. -/
theorem Path.unlocked {p q : Procedure (I.locked L) ε α} {past : List (Event (I.locked L))}
    (path : p.Path past q) : p.unlocked.Path (plainEvents past) q.unlocked := by
  induction path with
  | here => exact .here
  | @next op next answer past q _ inductionHypothesis =>
      cases op with
      | plain op => exact .next inductionHypothesis
      | acquire lock => exact inductionHypothesis
      | release lock => exact inductionHypothesis

variable [DecidableEq L]

/-- The locks held after an operation. A lock taken twice is to be given back twice. -/
def hold (locks : List L) : LockOp I L → List L
  | .plain _ => locks
  | .acquire lock => lock :: locks
  | .release lock => locks.erase lock

/-- The locks held after some events. -/
def heldFrom (locks : List L) (past : List (Event (I.locked L))) : List L :=
  past.foldl (fun locks event => hold locks event.op) locks

@[simp] theorem heldFrom_nil (locks : List L) :
    heldFrom locks ([] : List (Event (I.locked L))) = locks := rfl

@[simp] theorem heldFrom_cons (locks : List L) (event : Event (I.locked L))
    (past : List (Event (I.locked L))) :
    heldFrom locks (event :: past) = heldFrom (hold locks event.op) past := rfl

@[simp] theorem heldFrom_append (locks : List L) (first second : List (Event (I.locked L))) :
    heldFrom locks (first ++ second) = heldFrom (heldFrom locks first) second :=
  List.foldl_append

/-- A lock that is held after an operation was held before it, or the operation took it. -/
theorem mem_hold {locks : List L} {op : LockOp I L} {lock : L} (holds : lock ∈ hold locks op) :
    lock ∈ locks ∨ op = .acquire lock := by
  cases op with
  | plain op => exact .inl holds
  | acquire other =>
      rcases List.mem_cons.mp holds with rfl | before
      · exact .inr rfl
      · exact .inl before
  | release other => exact .inl (List.mem_of_mem_erase holds)

/-- A lock that is not given back stays held. -/
theorem mem_heldFrom {locks : List L} {past : List (Event (I.locked L))} {lock : L}
    (holds : lock ∈ locks) (kept : ∀ event ∈ past, event.op ≠ .release lock) :
    lock ∈ heldFrom locks past := by
  induction past generalizing locks with
  | nil => exact holds
  | cons event past inductionHypothesis =>
      obtain ⟨op, answer⟩ := event
      refine inductionHypothesis ?_ fun event member => kept event (List.mem_cons_of_mem _ member)
      cases op with
      | plain op => exact holds
      | acquire other => exact List.mem_cons_of_mem _ holds
      | release other =>
          have different := kept ⟨.release other, answer⟩ (List.mem_cons_self ..)
          exact (List.mem_erase_of_ne fun same => different (by rw [same])).mpr holds

/-! ### The order of locks -/

/-- A lock is taken again, or after locks of lower rank only, and given back when held. -/
def Admits (rank : L → Nat) (locks : List L) : LockOp I L → Prop
  | .plain _ => True
  | .acquire lock => lock ∈ locks ∨ ∀ other ∈ locks, rank other < rank lock
  | .release lock => lock ∈ locks

/-- From `locks` on, the procedure takes its locks in the order of their rank, and holds
`base` when it ends. -/
inductive Ordered (rank : L → Nat) (base : List L) : List L → Procedure (I.locked L) ε α → Prop where
  | done (value : α) : Ordered rank base base (.done value)
  | exit (reason : ε) : Ordered rank base base (.exit reason)
  | call {locks : List L} {op : LockOp I L} {next : op.Answer → Procedure (I.locked L) ε α}
      (admitted : Admits rank locks op)
      (further : ∀ answer, Ordered rank base (hold locks op) (next answer)) :
      Ordered rank base locks (.call (I := I.locked L) op next)

variable {rank : L → Nat} {base locks middle : List L}

theorem ordered_ended (outcome : Except ε α) :
    (ended outcome : Procedure (I.locked L) ε α).Ordered rank base base := by
  cases outcome with
  | ok value => exact .done value
  | error reason => exact .exit reason

theorem Ordered.bind {p : Procedure (I.locked L) ε α} {rest : α → Procedure (I.locked L) ε β}
    (first : p.Ordered rank base locks) (second : ∀ value, (rest value).Ordered rank base base) :
    (p >>= rest).Ordered rank base locks := by
  induction first with
  | done value => exact second value
  | exit reason => exact .exit reason
  | call admitted _ inductionHypothesis => exact .call admitted inductionHypothesis

/-- A caught procedure ends where it holds `middle`, however it ends. -/
theorem Ordered.attempt_bind {p : Procedure (I.locked L) ε α}
    {rest : Except ε α → Procedure (I.locked L) ε' β} (first : p.Ordered rank middle locks)
    (second : ∀ outcome, (rest outcome).Ordered rank base middle) :
    (p.attempt >>= rest).Ordered rank base locks := by
  induction first with
  | done value => exact second (.ok value)
  | exit reason => exact second (.error reason)
  | call admitted _ inductionHypothesis => exact .call admitted inductionHypothesis

theorem Ordered.withLock {lock : L} {body : Procedure (I.locked L) ε α}
    (above : ∀ other ∈ base, rank other < rank lock)
    (ordered : body.Ordered rank (lock :: base) (lock :: base)) :
    (withLock lock body).Ordered rank base base := by
  refine .call (.inr above) fun _ => ordered.attempt_bind fun outcome => ?_
  refine .call (List.mem_cons_self ..) fun _ => ?_
  rw [hold, List.erase_cons_head]
  exact ordered_ended outcome

/-- Operations whose own locks rank above those held keep the order. -/
theorem ordered_guarded {lockOf : I.Op → Option L} {op : I.Op}
    (above : ∀ lock ∈ lockOf op, ∀ other ∈ base, rank other < rank lock) :
    (guarded lockOf op : Procedure (I.locked L) ε (I.Answer op)).Ordered rank base base := by
  unfold guarded
  split
  · exact .call trivial .done
  · rename_i lock owns
    exact .withLock (above lock owns) (.call trivial .done)

theorem ordered_guardEach {lockOf : I.Op → Option L} (p : Procedure I ε α)
    (above : ∀ op, ∀ lock ∈ lockOf op, ∀ other ∈ base, rank other < rank lock) :
    (p.guardEach lockOf).Ordered rank base base := by
  induction p with
  | done value => exact .done value
  | exit reason => exact .exit reason
  | call op next inductionHypothesis => exact (ordered_guarded (above op)).bind inductionHypothesis

/-- The next operation of an ordered procedure keeps the order. -/
theorem Ordered.admitted {op : LockOp I L} {next : op.Answer → Procedure (I.locked L) ε α}
    (ordered : (Procedure.call (I := I.locked L) op next).Ordered rank base locks) :
    Admits rank locks op := by
  cases ordered with
  | call admitted _ => exact admitted

/-- What remains of an ordered procedure is ordered. -/
theorem Ordered.remains {p q : Procedure (I.locked L) ε α} {past : List (Event (I.locked L))}
    (ordered : p.Ordered rank base locks) (path : p.Path past q) :
    q.Ordered rank base (heldFrom locks past) := by
  induction path generalizing locks with
  | here => exact ordered
  | next _ inductionHypothesis =>
      cases ordered with
      | call _ further => exact inductionHypothesis (further _)

end Procedure
end NetworkFinality.Semantics
