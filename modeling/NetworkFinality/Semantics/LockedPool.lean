import NetworkFinality.Semantics.Locking

/-!
# Pools of threads under locks

A locked step is a step of a pool in which nobody else holds the lock that the thread
takes. Two threads never hold one lock (`LockedSteps.exclusive`). What a thread knows of
the shared state has to be kept only by the operations of threads that hold none of its
locks (`LockedSteps.facts_hold`). Threads of ordered procedures do not deadlock
(`progress`), and whatever they do, they come to their end (`completes`).

Forgetting the locks turns a locked run into a run of the plain procedures
(`LockedSteps.unlocked`).
-/

namespace NetworkFinality.Semantics

variable {I : Interface} {L C ε S : Type} {ρ : C → Type}

/-! ### Threads come to an end -/

section Ends

variable {program : (call : C) → Procedure I ε (ρ call)} {handler : Handler I S}

/-- The thread has no operation left to perform. -/
def Thread.Finished (thread : Thread program) : Prop :=
  ∀ op next, thread.rest ≠ .call op next

/-- One thread is another after one more operation. -/
def Thread.Follows (after before : Thread program) : Prop :=
  ∃ (op : I.Op) (next : I.Answer op → Procedure I ε (ρ before.call))
    (calls : before.rest = .call op next) (answer : I.Answer op),
    after = before.advance calls answer

/-- A thread performs finitely many operations. -/
theorem Thread.acc_follows (thread : Thread program) : Acc Thread.Follows thread := by
  obtain ⟨call, past, rest, reached⟩ := thread
  induction rest generalizing past with
  | done value =>
      refine ⟨_, ?_⟩
      rintro _ ⟨op, next, calls, answer, rfl⟩
      cases calls
  | exit reason =>
      refine ⟨_, ?_⟩
      rintro _ ⟨op, next, calls, answer, rfl⟩
      cases calls
  | call op next inductionHypothesis =>
      refine ⟨_, ?_⟩
      rintro _ ⟨op, next, calls, answer, rfl⟩
      cases calls
      exact inductionHypothesis answer _ _

/-- Lists that differ in one element, which has become smaller. -/
def LowersOne {α : Type} (lower : α → α → Prop) (after before : List α) : Prop :=
  ∃ (index : Nat) (item item' : α), before[index]? = some item ∧ lower item' item ∧
    after = before.set index item'

/-- A step of a list changes its head or its tail. -/
theorem LowersOne.acc_cons {α : Type} {lower : α → α → Prop} {first : α} {items : List α}
    (head : Acc lower first) (tail : Acc (LowersOne lower) items) :
    Acc (LowersOne lower) (first :: items) := by
  have both : Acc (Prod.GameAdd lower (LowersOne lower)) (first, items) := head.prod_gameAdd tail
  generalize pair : (first, items) = start at both
  induction both generalizing first items with
  | intro start _ further =>
      subst pair
      refine ⟨_, ?_⟩
      rintro _ ⟨index, item, item', found, lowered, rfl⟩
      cases index with
      | zero =>
          obtain rfl : first = item := by simpa using found
          exact further _ (.fst lowered) (head.inv lowered) tail rfl
      | succ index =>
          have lowersTail : LowersOne lower (items.set index item') items :=
            ⟨index, item, item', by simpa using found, lowered, rfl⟩
          exact further _ (.snd lowersTail) head (tail.inv lowersTail) rfl

/-- Elements that cannot become smaller for ever make a list that cannot. -/
theorem acc_lowersOne {α : Type} {lower : α → α → Prop} {items : List α}
    (each : ∀ item, Acc lower item) : Acc (LowersOne lower) items := by
  induction items with
  | nil =>
      refine ⟨_, ?_⟩
      rintro _ ⟨index, item, item', found, -⟩
      simp at found
  | cons first items inductionHypothesis => exact LowersOne.acc_cons (each first) inductionHypothesis

namespace Pool

/-- No call may start, and the environment does nothing. -/
def idle (program : (call : C) → Procedure I ε (ρ call)) (S : Type) : Schedule program S :=
  ⟨fun _ _ => False, fun _ _ => False⟩

variable (program handler) in
/-- Calls that have started cannot go on for ever. -/
theorem wellFounded_idle :
    WellFounded fun after before => Step handler (idle program S) before after := by
  refine ⟨fun pool => ?_⟩
  obtain ⟨state, threads⟩ := pool
  have finite : Acc (LowersOne Thread.Follows) threads := acc_lowersOne Thread.acc_follows
  induction finite generalizing state with
  | intro threads _ further =>
      refine ⟨_, ?_⟩
      rintro after (⟨⟨⟩⟩ | ⟨found, calls⟩ | ⟨⟨⟩⟩)
      exact further _ ⟨_, _, _, found, ⟨_, _, calls, _, rfl⟩, rfl⟩ _

end Pool
end Ends

/-! ### Steps under locks -/

section Locks

variable [DecidableEq L] {program : (call : C) → Procedure (I.locked L) ε (ρ call)}
  {handler : Handler I S} {schedule : Schedule program S} {rank : L → Nat}

namespace Thread

/-- The locks a thread holds. -/
def locks (thread : Thread program) : List L := Procedure.heldFrom [] thread.past

@[simp] theorem locks_start (call : C) : (Thread.start program call).locks = [] := rfl

@[simp] theorem locks_advance (thread : Thread program) {op : LockOp I L}
    {next : op.Answer → Procedure (I.locked L) ε (ρ thread.call)}
    (calls : thread.rest = .call (I := I.locked L) op next) (answer : op.Answer) :
    (thread.advance calls answer).locks = Procedure.hold thread.locks op := by
  simp [locks]

end Thread

namespace Pool

/-- No other thread holds the lock that the operation takes. -/
def Free (pool : Pool program S) (index : Nat) (op : LockOp I L) : Prop :=
  ∀ lock, op = .acquire lock → ∀ other thread, pool.threads[other]? = some thread →
    other ≠ index → lock ∉ thread.locks

/-- One step of a pool under locks. -/
inductive LockedStep (handler : Handler I S) (schedule : Schedule program S) :
    Pool program S → Pool program S → Prop where
  | start {pool : Pool program S} {call : C} (allowed : schedule.starts pool call) :
      LockedStep handler schedule pool ⟨pool.shared, pool.threads ++ [Thread.start program call]⟩
  | perform {pool : Pool program S} {index : Nat} {thread : Thread program} {op : LockOp I L}
      {next : op.Answer → Procedure (I.locked L) ε (ρ thread.call)}
      (found : pool.threads[index]? = some thread)
      (calls : thread.rest = .call (I := I.locked L) op next) (free : Free pool index op) :
      LockedStep handler schedule pool
        ⟨(lockedHandler handler op pool.shared).2,
          pool.threads.set index (thread.advance calls (lockedHandler handler op pool.shared).1)⟩
  | change {pool : Pool program S} {state : S} (allowed : schedule.changes pool state) :
      LockedStep handler schedule pool ⟨state, pool.threads⟩

/-- Any number of steps under locks. -/
abbrev LockedSteps (handler : Handler I S) (schedule : Schedule program S) :
    Pool program S → Pool program S → Prop :=
  Relation.ReflTransGen (LockedStep handler schedule)

/-- Locks only rule steps out. -/
theorem LockedStep.step {before after : Pool program S}
    (step : LockedStep handler schedule before after) :
    Step (lockedHandler handler) schedule before after := by
  cases step with
  | start allowed => exact .start allowed
  | perform found calls free => exact .perform found calls
  | change allowed => exact .change allowed

theorem LockedSteps.steps {before after : Pool program S}
    (steps : LockedSteps handler schedule before after) :
    Steps (lockedHandler handler) schedule before after :=
  Relation.ReflTransGen.mono (fun _ _ step => LockedStep.step step) _ _ steps

/-- No two threads hold one lock. -/
def Exclusive (pool : Pool program S) : Prop :=
  ∀ ⦃i j : Nat⦄ ⦃first second : Thread program⦄ ⦃lock : L⦄, pool.threads[i]? = some first →
    pool.threads[j]? = some second → lock ∈ first.locks → lock ∈ second.locks → i = j

theorem LockedStep.exclusive {before after : Pool program S}
    (step : LockedStep handler schedule before after) (exclusive : Exclusive before) :
    Exclusive after := by
  cases step with
  | start allowed =>
      intro i j first second lock atFirst atSecond holds holds'
      rcases getElem?_start atFirst with old | ⟨-, rfl⟩
      · rcases getElem?_start atSecond with old' | ⟨-, rfl⟩
        · exact exclusive old old' holds holds'
        · simp at holds'
      · simp at holds
  | @perform index actor op next found calls free =>
      -- A lock the actor holds afterwards is held by nobody else.
      have alone : ∀ {place : Nat} {thread : Thread program} {lock : L}, place ≠ index →
          before.threads[place]? = some thread → lock ∈ thread.locks →
          lock ∉ (actor.advance calls (lockedHandler handler op before.shared).1).locks := by
        intro place thread lock elsewhere atPlace holds holds'
        rw [Thread.locks_advance] at holds'
        rcases Procedure.mem_hold holds' with already | takes
        · exact elsewhere (exclusive atPlace found holds already)
        · exact free lock takes place thread atPlace elsewhere holds
      intro i j first second lock atFirst atSecond holds holds'
      rcases getElem?_perform atFirst with ⟨rfl, rfl⟩ | ⟨elsewhere, other⟩
      · rcases getElem?_perform atSecond with ⟨rfl, -⟩ | ⟨elsewhere', other'⟩
        · rfl
        · exact absurd holds (alone elsewhere' other' holds')
      · rcases getElem?_perform atSecond with ⟨rfl, rfl⟩ | ⟨-, other'⟩
        · exact absurd holds' (alone elsewhere other holds)
        · exact exclusive other other' holds holds'
  | change allowed => exact exclusive

/-- Locks exclude: in a reachable pool no two threads hold one lock. -/
theorem LockedSteps.exclusive {before after : Pool program S}
    (steps : LockedSteps handler schedule before after) (exclusive : Exclusive before) :
    Exclusive after := by
  induction steps with
  | refl => exact exclusive
  | tail _ step inductionHypothesis => exact step.exclusive inductionHypothesis

theorem exclusive_initial (state : S) : Exclusive (initial program state) := by
  intro i j first second lock atFirst
  simp [initial] at atFirst

/-- What a thread knows of the shared state holds in every reachable pool, when its own
operations keep it and so do those of threads that hold none of its locks. -/
theorem LockedSteps.facts_hold (fact : Thread program → S → Prop)
    (starts : ∀ (pool : Pool program S) (call : C), schedule.starts pool call →
      fact (Thread.start program call) pool.shared)
    (performs : ∀ (thread : Thread program) (op : LockOp I L)
      (next : op.Answer → Procedure (I.locked L) ε (ρ thread.call))
      (calls : thread.rest = .call (I := I.locked L) op next) (state : S), fact thread state →
      fact (thread.advance calls (lockedHandler handler op state).1)
        (lockedHandler handler op state).2)
    (kept : ∀ (thread actor : Thread program) (op : LockOp I L)
      (next : op.Answer → Procedure (I.locked L) ε (ρ actor.call)) (state : S),
      actor.rest = .call (I := I.locked L) op next →
      (∀ lock ∈ thread.locks, lock ∉ actor.locks) → fact actor state → fact thread state →
      fact thread (lockedHandler handler op state).2)
    (undisturbed : ∀ (pool : Pool program S) (state : S), schedule.changes pool state →
      ∀ thread ∈ pool.threads, fact thread pool.shared → fact thread state)
    {state : S} {pool : Pool program S}
    (steps : LockedSteps handler schedule (initial program state) pool) :
    ∀ thread ∈ pool.threads, fact thread pool.shared := by
  induction steps with
  | refl => simp [initial]
  | @tail middle final before step inductionHypothesis =>
      have exclusive := LockedSteps.exclusive before (exclusive_initial state)
      cases step with
      | start allowed =>
          intro thread member
          rcases List.mem_append.mp member with old | new
          · exact inductionHypothesis thread old
          · rw [List.mem_singleton.mp new]
            exact starts middle _ allowed
      | @perform index actor op next found calls free =>
          intro thread member
          obtain ⟨place, atPlace⟩ := List.mem_iff_getElem?.mp member
          rcases getElem?_perform atPlace with ⟨-, rfl⟩ | ⟨elsewhere, other⟩
          · exact performs actor op next calls _
              (inductionHypothesis actor (List.mem_of_getElem? found))
          · refine kept thread actor op next _ calls ?_
              (inductionHypothesis actor (List.mem_of_getElem? found))
              (inductionHypothesis thread (List.mem_of_getElem? other))
            intro lock holds holds'
            exact elsewhere (exclusive other found holds holds')
      | change allowed =>
          intro thread member
          exact undisturbed _ _ allowed thread member (inductionHypothesis thread member)

/-! ### Deadlock -/

/-- The lock a thread is about to take. -/
def wanted (thread : Thread program) : Option L :=
  match thread.rest with
  | .call (.acquire lock) _ => some lock
  | _ => none

omit [DecidableEq L] in
theorem wanted_eq_some {thread : Thread program} {lock : L}
    {next : Unit → Procedure (I.locked L) ε (ρ thread.call)}
    (calls : thread.rest = .call (I := I.locked L) (.acquire lock) next) :
    wanted thread = some lock := by
  unfold wanted
  rw [calls]

/-- The numbers of finitely many items are bounded. -/
theorem exists_bound {α : Type} (number : α → Option Nat) (items : List α) :
    ∃ bound, ∀ item ∈ items, ∀ n ∈ number item, n < bound := by
  induction items with
  | nil => exact ⟨0, by simp⟩
  | cons first items inductionHypothesis =>
      obtain ⟨bound, below⟩ := inductionHypothesis
      refine ⟨max bound ((number first).elim 0 (· + 1)), fun item member n numbered => ?_⟩
      rcases List.mem_cons.mp member with rfl | later
      · rw [Option.mem_def.mp numbered]
        exact lt_max_of_lt_right (Nat.lt_succ_self n)
      · exact lt_max_of_lt_left (below item later n numbered)

/-- A thread of an ordered procedure has locks to give back, or has ended. -/
theorem ordered_rest (ordered : ∀ call, (program call).Ordered rank [] [])
    (thread : Thread program) : thread.rest.Ordered rank [] thread.locks :=
  (ordered thread.call).remains thread.reached

/-- A thread that holds a lock has not ended. -/
theorem unfinished_of_held (ordered : ∀ call, (program call).Ordered rank [] [])
    {thread : Thread program} {lock : L} (holds : lock ∈ thread.locks) : ¬ thread.Finished := by
  intro finished
  have rest := ordered_rest ordered thread
  generalize thread.locks = locks at rest holds
  rcases shape : thread.rest with value | reason | ⟨op, next⟩
  · rw [shape] at rest
    cases rest
    cases holds
  · rw [shape] at rest
    cases rest
    cases holds
  · exact finished op next shape

variable (handler) in
/-- No deadlock: while some thread has not ended, one of the threads can go on. -/
theorem progress (ordered : ∀ call, (program call).Ordered rank [] []) {pool : Pool program S}
    (exclusive : Exclusive pool) {index : Nat} {thread : Thread program}
    (found : pool.threads[index]? = some thread) (unfinished : ¬ thread.Finished) :
    ∃ after, LockedStep handler (idle program S) pool after := by
  by_contra stuck
  -- A thread that has not ended waits for a lock of another thread.
  have blocked : ∀ (index : Nat) (thread : Thread program), pool.threads[index]? = some thread →
      ¬ thread.Finished → ∃ lock next, thread.rest = .call (I := I.locked L) (.acquire lock) next ∧
        ∃ other holder, pool.threads[other]? = some holder ∧ other ≠ index ∧
          lock ∈ holder.locks := by
    intro index thread found unfinished
    obtain ⟨op, shape⟩ := not_forall.mp unfinished
    obtain ⟨next, calls⟩ := not_forall.mp shape
    have calls := not_not.mp calls
    have waits : ¬ Free pool index op := fun free => stuck ⟨_, .perform found calls free⟩
    simp only [Free, not_forall, not_not] at waits
    obtain ⟨lock, rfl, other, holder, atOther, elsewhere, holds⟩ := waits
    exact ⟨lock, next, calls, other, holder, atOther, elsewhere, holds⟩
  obtain ⟨bound, below⟩ := exists_bound (fun thread => (wanted thread).map rank) pool.threads
  -- The holder of a lock that is waited for waits for a lock of higher rank.
  have climbs : ∀ n, ∃ (index : Nat) (thread : Thread program) (lock : L)
      (next : Unit → Procedure (I.locked L) ε (ρ thread.call)),
      pool.threads[index]? = some thread ∧
        thread.rest = .call (I := I.locked L) (.acquire lock) next ∧ n ≤ rank lock := by
    intro n
    induction n with
    | zero =>
        obtain ⟨lock, next, calls, -⟩ := blocked index thread found unfinished
        exact ⟨index, thread, lock, next, found, calls, Nat.zero_le _⟩
    | succ n inductionHypothesis =>
        obtain ⟨index, thread, lock, next, found, calls, high⟩ := inductionHypothesis
        obtain ⟨lock', next', calls', other, holder, atOther, elsewhere, holds⟩ :=
          blocked index thread found fun finished => finished _ _ calls
        obtain rfl : lock' = lock := by
          have same := (wanted_eq_some calls').symm.trans (wanted_eq_some calls)
          exact Option.some.inj same
        obtain ⟨higher, next, waits, other', holder', atOther', elsewhere', holds'⟩ :=
          blocked other holder atOther (unfinished_of_held ordered holds)
        refine ⟨other, holder, higher, next, atOther, waits, ?_⟩
        have rest := ordered_rest ordered holder
        rw [waits] at rest
        rcases rest.admitted with again | above
        · exact absurd (exclusive atOther' atOther holds' again) elsewhere'
        · exact Nat.lt_of_le_of_lt high (above lock' holds)
  obtain ⟨index, thread, lock, next, found, calls, high⟩ := climbs bound
  have low := below thread (List.mem_of_getElem? found) (rank lock) (by simp [wanted_eq_some calls])
  omega

variable (handler) in
/-- The threads of a pool can always come to their end, and whichever of them go on, they
do so after finitely many steps. -/
theorem completes (ordered : ∀ call, (program call).Ordered rank [] []) {pool : Pool program S}
    (exclusive : Exclusive pool) :
    ∃ final, LockedSteps handler (idle program S) pool final ∧
      ∀ thread ∈ final.threads, thread.Finished := by
  have finite : Acc (fun after before => Step (lockedHandler handler) (idle program S) before after)
      pool := (wellFounded_idle _ _).apply pool
  induction finite with
  | intro pool _ further =>
      by_cases finished : ∀ thread ∈ pool.threads, thread.Finished
      · exact ⟨pool, .refl, finished⟩
      · obtain ⟨thread, unfinished⟩ := not_forall.mp finished
        obtain ⟨member, unfinished⟩ := Classical.not_imp.mp unfinished
        obtain ⟨index, found⟩ := List.mem_iff_getElem?.mp member
        obtain ⟨after, step⟩ := progress handler ordered exclusive found unfinished
        obtain ⟨final, steps, ended⟩ := further after step.step (step.exclusive exclusive)
        exact ⟨final, .head step steps, ended⟩

/-! A scheduler that gives one thread after the other its turn. -/

/-- Another thread holds the lock that the operation takes. -/
def blocks (pool : Pool program S) (index : Nat) : LockOp I L → Bool
  | .acquire lock => pool.threads.zipIdx.any fun (thread, place) =>
      place != index && decide (lock ∈ thread.locks)
  | _ => false

theorem free_of_blocks {pool : Pool program S} {index : Nat} {op : LockOp I L}
    (clear : pool.blocks index op = false) : Free pool index op := by
  rintro lock rfl other thread found elsewhere holds
  have blocked : pool.blocks index (.acquire lock) = true :=
    List.any_eq_true.mpr ⟨(thread, other), List.mem_zipIdx_iff_getElem?.mpr found,
      by simp [elsewhere, holds]⟩
  cases clear.symm.trans blocked

/-- The thread performs its next operation, unless it has to wait. -/
def attempt (handler : Handler I S) (pool : Pool program S) (index : Nat) : Pool program S :=
  match pool.threads[index]? with
  | none => pool
  | some thread =>
      match calls : thread.rest with
      | .call op _ =>
          if pool.blocks index op then pool
          else ⟨(lockedHandler handler op pool.shared).2,
            pool.threads.set index (thread.advance calls (lockedHandler handler op pool.shared).1)⟩
      | _ => pool

theorem attempt_steps (pool : Pool program S) (index : Nat) :
    LockedSteps handler schedule pool (attempt handler pool index) := by
  unfold attempt
  split
  · exact .refl
  · rename_i thread found
    split
    · split
      · exact .refl
      · rename_i op next calls clear
        exact .single (.perform found calls (free_of_blocks (Bool.eq_false_of_not_eq_true clear)))
    · exact .refl

/-- The threads get their turns in this order. -/
def play (handler : Handler I S) (turns : List Nat) (pool : Pool program S) : Pool program S :=
  turns.foldl (attempt handler) pool

theorem play_steps (turns : List Nat) (pool : Pool program S) :
    LockedSteps handler schedule pool (play handler turns pool) := by
  induction turns generalizing pool with
  | nil => exact .refl
  | cons index turns inductionHypothesis =>
      exact (attempt_steps pool index).trans (inductionHypothesis _)

end Pool
end Locks

/-! ### Without the locks -/

section Unlocked

variable {D : Type} {σ : D → Type} {name : C → D}
  {program : (call : C) → Procedure (I.locked L) ε (σ (name call))}
  {plain : (call : D) → Procedure I ε (σ call)} {handler : Handler I S}
  {schedule : Schedule plain S}

/-- The thread of the plain procedure. -/
def Thread.unlocked (erases : ∀ call, (program call).unlocked = plain (name call))
    (thread : Thread program) : Thread plain where
  call := name thread.call
  past := Procedure.plainEvents thread.past
  rest := thread.rest.unlocked
  reached := by
    rw [← erases]
    exact thread.reached.unlocked

variable (erases : ∀ call, (program call).unlocked = plain (name call))

theorem Thread.unlocked_start (call : C) :
    (Thread.start program call).unlocked erases = Thread.start plain (name call) := by
  simp [Thread.unlocked, Thread.start, erases]

/-- A plain operation of a thread is one of the plain thread. -/
theorem Thread.unlocked_advance_plain {thread : Thread program} {op : I.Op}
    {next : I.Answer op → Procedure (I.locked L) ε (σ (name thread.call))}
    (calls : thread.rest = .call (I := I.locked L) (.plain op) next) (answer : I.Answer op) :
    ∃ plainCalls : (thread.unlocked erases).rest = .call op fun answer => (next answer).unlocked,
      (thread.advance calls answer).unlocked erases =
        (thread.unlocked erases).advance plainCalls answer := by
  have plainCalls : (thread.unlocked erases).rest =
      .call op fun answer => (next answer).unlocked := by
    change thread.rest.unlocked = _
    rw [calls]
    rfl
  refine ⟨plainCalls, ?_⟩
  simp only [Thread.unlocked, Thread.advance, Procedure.plainEvents_append]
  rfl

/-- Taking or giving back a lock leaves the plain thread as it is. -/
theorem Thread.unlocked_advance_lock {thread : Thread program} {op : LockOp I L}
    {next : op.Answer → Procedure (I.locked L) ε (σ (name thread.call))}
    (calls : thread.rest = .call (I := I.locked L) op next) (answer : op.Answer)
    (nothing : Procedure.plainEvent (⟨op, answer⟩ : Event (I.locked L)) = none) :
    (thread.advance calls answer).unlocked erases = thread.unlocked erases := by
  have same : thread.rest.unlocked = (next answer).unlocked := by
    rw [calls]
    cases op with
    | plain op => cases nothing
    | acquire lock => rfl
    | release lock => rfl
  simp [Thread.unlocked, Thread.advance, same, Procedure.plainEvents_cons, nothing]

namespace Pool

/-- The pool of the plain threads. -/
def unlocked (pool : Pool program S) : Pool plain S :=
  ⟨pool.shared, pool.threads.map (Thread.unlocked erases)⟩

@[simp] theorem unlocked_shared (pool : Pool program S) :
    (pool.unlocked erases).shared = pool.shared := rfl

theorem unlocked_append (pool : Pool program S) (call : C) :
    unlocked erases ⟨pool.shared, pool.threads ++ [Thread.start program call]⟩ =
      ⟨pool.shared, (pool.unlocked erases).threads ++ [Thread.start plain (name call)]⟩ := by
  simp [unlocked, Thread.unlocked_start]

theorem unlocked_set (pool : Pool program S) (state : S) (index : Nat) (thread : Thread program) :
    unlocked erases ⟨state, pool.threads.set index thread⟩ =
      ⟨state, (pool.unlocked erases).threads.set index (thread.unlocked erases)⟩ := by
  simp [unlocked, List.map_set]

/-- Calls start, and the environment acts, as without the locks. -/
def locked (schedule : Schedule plain S) : Schedule program S where
  starts pool call := schedule.starts (pool.unlocked erases) (name call)
  changes pool state := schedule.changes (pool.unlocked erases) state

variable [DecidableEq L]

/-- A step under locks is a step of the plain pool, or leaves it as it is. -/
theorem LockedStep.unlocked {before after : Pool program S}
    (step : LockedStep handler (locked erases schedule) before after) :
    Relation.ReflGen (Step handler schedule) (before.unlocked erases) (after.unlocked erases) := by
  cases step with
  | start allowed =>
      rw [unlocked_append]
      exact .single (.start allowed)
  | @perform index thread op next found calls free =>
      have place : (before.unlocked erases).threads[index]? = some (thread.unlocked erases) := by
        simp [Pool.unlocked, found]
      rw [unlocked_set]
      rcases read : Procedure.plainEvent (⟨op, (lockedHandler handler op before.shared).1⟩ :
        Event (I.locked L)) with _ | event
      · have idles : (lockedHandler handler op before.shared).2 = before.shared := by
          cases op with
          | plain op => cases read
          | acquire lock => rfl
          | release lock => rfl
        obtain ⟨position, present⟩ := List.getElem?_eq_some_iff.mp place
        rw [Thread.unlocked_advance_lock erases calls _ read, idles, ← present,
          List.set_getElem_self]
        exact .refl
      · cases op with
        | acquire lock => cases read
        | release lock => cases read
        | plain op =>
            obtain ⟨plainCalls, same⟩ := Thread.unlocked_advance_plain erases calls
              (handler op before.shared).1
            have performed : Step handler schedule (before.unlocked erases) _ :=
              .perform place plainCalls
            rw [unlocked_shared, ← same] at performed
            exact .single performed
  | change allowed => exact .single (.change allowed)

/-- A run under locks is a run of the plain pool. -/
theorem LockedSteps.unlocked {before after : Pool program S}
    (steps : LockedSteps handler (locked erases schedule) before after) :
    Steps handler schedule (before.unlocked erases) (after.unlocked erases) := by
  induction steps with
  | refl => exact .refl
  | tail _ step inductionHypothesis => exact inductionHypothesis.trans (step.unlocked erases).to_reflTransGen

end Pool
end Unlocked
end NetworkFinality.Semantics
