import NetworkFinality.Semantics.Pool

/-!
# Serial histories

A history runs one whole call after the other, with changes of the environment
only between calls. It is a run of the pool in which every thread has finished, so
whatever holds of all pools holds of it as well. A history also remembers the
state each call started from, and is itself a history up to that call.
-/

namespace NetworkFinality.Semantics

variable {I : Interface} {C ε S : Type} {ρ : C → Type}

/-! ### Running one thread to its end -/

/-- The thread after it has run to its end without interference. -/
def Thread.complete {program : (call : C) → Procedure I ε (ρ call)} (handler : Handler I S)
    (thread : Thread program) (state : S) : Thread program where
  call := thread.call
  past := thread.past ++ thread.rest.trace handler state
  rest := .ended (thread.rest.run handler state).1
  reached := thread.reached.trans (Procedure.trace_path handler thread.rest state)

namespace Pool

variable {program : (call : C) → Procedure I ε (ρ call)} {handler : Handler I S}
  {schedule : Schedule program S}

private theorem set_found {threads : List (Thread program)} {index : Nat} {thread : Thread program}
    (found : threads[index]? = some thread) : threads.set index thread = threads := by
  obtain ⟨position, present⟩ := List.getElem?_eq_some_iff.mp found
  rw [← present, List.set_getElem_self]

/-- Running one thread to its end is a run of the pool. -/
theorem steps_complete {state : S} {threads : List (Thread program)} {index : Nat}
    {thread : Thread program} (found : threads[index]? = some thread) :
    Steps handler schedule ⟨state, threads⟩
      ⟨(thread.rest.run handler state).2, threads.set index (thread.complete handler state)⟩ := by
  obtain ⟨call, past, rest, reached⟩ := thread
  induction rest generalizing state threads past with
  | done value =>
      have finished : Thread.complete handler ⟨call, past, .done value, reached⟩ state =
          ⟨call, past, .done value, reached⟩ := by
        simp [Thread.complete, Procedure.trace, Procedure.ended]
      rw [finished, set_found found]
      exact .refl
  | exit reason =>
      have finished : Thread.complete handler ⟨call, past, .exit reason, reached⟩ state =
          ⟨call, past, .exit reason, reached⟩ := by
        simp [Thread.complete, Procedure.trace, Procedure.ended]
      rw [finished, set_found found]
      exact .refl
  | call op next inductionHypothesis =>
      have position : index < threads.length := (List.getElem?_eq_some_iff.mp found).1
      -- Perform the first operation, then run what remains.
      have continued := @inductionHypothesis (handler op state).1 (handler op state).2
        (threads.set index _) _ (reached.snoc _) (List.getElem?_set_self position)
      rw [List.set_set] at continued
      have same : Thread.complete handler ⟨call, past, .call op next, reached⟩ state =
          Thread.complete handler ⟨call, past ++ [⟨op, (handler op state).1⟩],
            next (handler op state).1, reached.snoc _⟩ (handler op state).2 := by
        simp [Thread.complete, Procedure.trace]
      rw [same]
      exact .head (.perform found rfl) continued

end Pool

/-! ### Histories -/

/-- One whole call, and the state it started from. -/
structure Turn (C S : Type) where
  call : C
  before : S

/-- The calls so far, and the state they and the environment have led to. -/
inductive History (program : (call : C) → Procedure I ε (ρ call)) (handler : Handler I S)
    (changes : S → S → Prop) (initial : S) : List (Turn C S) → S → Prop where
  | start : History program handler changes initial [] initial
  | call {turns : List (Turn C S)} {state : S}
      (history : History program handler changes initial turns state) (call : C) :
      History program handler changes initial (turns ++ [⟨call, state⟩])
        ((program call).run handler state).2
  | change {turns : List (Turn C S)} {state state' : S}
      (history : History program handler changes initial turns state)
      (allowed : changes state state') : History program handler changes initial turns state'

namespace Turn

variable (program : (call : C) → Procedure I ε (ρ call)) (handler : Handler I S)

/-- How the call of a turn ended. -/
def outcome (turn : Turn C S) : Except ε (ρ turn.call) :=
  ((program turn.call).run handler turn.before).1

/-- The finished thread of a turn. -/
def thread (turn : Turn C S) : Thread program :=
  (Thread.start program turn.call).complete handler turn.before

@[simp] theorem thread_call (turn : Turn C S) : (turn.thread program handler).call = turn.call := rfl

@[simp] theorem thread_past (turn : Turn C S) : (turn.thread program handler).past =
    (program turn.call).trace handler turn.before := rfl

@[simp] theorem thread_rest (turn : Turn C S) : (turn.thread program handler).rest =
    .ended (turn.outcome program handler) := rfl

/-- The calls of a history as a pool of finished threads. -/
def pool (turns : List (Turn C S)) (state : S) : Pool program S :=
  ⟨state, turns.map (Turn.thread program handler)⟩

@[simp] theorem pool_shared (turns : List (Turn C S)) (state : S) :
    (pool program handler turns state).shared = state := rfl

@[simp] theorem pool_threads (turns : List (Turn C S)) (state : S) :
    (pool program handler turns state).threads = turns.map (Turn.thread program handler) := rfl

variable {program handler} in
theorem thread_mem_pool {turns : List (Turn C S)} {turn : Turn C S} (listed : turn ∈ turns)
    (state : S) : turn.thread program handler ∈ (pool program handler turns state).threads :=
  List.mem_map_of_mem listed

end Turn

namespace History

variable {program : (call : C) → Procedure I ε (ρ call)} {handler : Handler I S}
  {changes : S → S → Prop} {initial : S}

/-- A history up to one of its calls. -/
theorem up_to {turns earlier later : List (Turn C S)} {state : S} {turn : Turn C S}
    (history : History program handler changes initial turns state)
    (split : turns = earlier ++ turn :: later) :
    History program handler changes initial earlier turn.before := by
  induction history generalizing later with
  | start => simp at split
  | @call turns state history call inductionHypothesis =>
      rcases List.eq_nil_or_concat later with rfl | ⟨later, last, rfl⟩
      · obtain ⟨rfl, same⟩ := List.append_inj' split rfl
        obtain rfl := List.singleton_inj.mp same
        exact history
      · apply inductionHypothesis
        rw [List.concat_eq_append, ← List.cons_append, ← List.append_assoc] at split
        exact (List.append_inj' split rfl).1
  | change _ _ inductionHypothesis => exact inductionHypothesis split

/-- A history is a run of the pool whose threads are its finished calls, under any
schedule that lets them start. -/
theorem pool {schedule : Schedule program S} {turns : List (Turn C S)} {state : S}
    (history : History program handler changes initial turns state)
    (starts : ∀ earlier turn later, turns = earlier ++ turn :: later →
      schedule.starts ⟨turn.before, earlier.map (Turn.thread program handler)⟩ turn.call)
    (permitted : ∀ (pool : Pool program S) state, changes pool.shared state →
      schedule.changes pool state) :
    Pool.Steps handler schedule (Pool.initial program initial)
      (Turn.pool program handler turns state) := by
  induction history with
  | start => exact .refl
  | @call turns state history call inductionHypothesis =>
      have before := inductionHypothesis fun earlier turn later split =>
        starts earlier turn (later ++ [⟨call, state⟩]) (by simp [split])
      have started := before.tail (.start (starts turns ⟨call, state⟩ [] rfl))
      have place : (turns.map (Turn.thread program handler) ++ [Thread.start program call])[
          turns.length]? = some (Thread.start program call) := by
        simp
      have finished := started.trans (Pool.steps_complete place)
      have last : (turns.map (Turn.thread program handler) ++ [Thread.start program call]).set
          turns.length ((Thread.start program call).complete handler state) =
          (turns ++ [Turn.mk call state]).map (Turn.thread program handler) := by
        simp [List.set_append_right, Turn.thread]
      rw [Turn.pool, ← last]
      exact finished
  | change _ allowed inductionHypothesis =>
      exact (inductionHypothesis starts).tail (.change (permitted _ _ allowed))

end History
end NetworkFinality.Semantics
