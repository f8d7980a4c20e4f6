import NetworkFinality.Semantics.Serial

/-!
# The order of events

A timeline is a run of a pool with the events of all its threads in the order in which
they were performed. The events of one thread are those of the timeline under its
position. `follow` lets one thread go along a path for as long as the shared state
answers as the path says, so that a particular interleaving can be put together.

`Lifetimes` puts the timelines of several processes one after the other. A process
starts from whatever the one before it has left for it to find.
-/

namespace NetworkFinality.Semantics

variable {I : Interface} {C ε S : Type} {ρ : C → Type}
  {program : (call : C) → Procedure I ε (ρ call)} {handler : Handler I S}
  {schedule : Schedule program S}

/-- The events so far, each with the position of its thread, and the pool they have led
to. -/
inductive Timeline (handler : Handler I S) (schedule : Schedule program S) (initial : S) :
    List (Nat × Event I) → Pool program S → Prop where
  | initial : Timeline handler schedule initial [] (Pool.initial program initial)
  | start {log : List (Nat × Event I)} {pool : Pool program S} {call : C}
      (earlier : Timeline handler schedule initial log pool) (allowed : schedule.starts pool call) :
      Timeline handler schedule initial log
        ⟨pool.shared, pool.threads ++ [Thread.start program call]⟩
  | perform {log : List (Nat × Event I)} {pool : Pool program S} {index : Nat}
      {thread : Thread program} {op : I.Op} {next : I.Answer op → Procedure I ε (ρ thread.call)}
      (earlier : Timeline handler schedule initial log pool)
      (found : pool.threads[index]? = some thread) (calls : thread.rest = .call op next) :
      Timeline handler schedule initial (log ++ [(index, ⟨op, (handler op pool.shared).1⟩)])
        ⟨(handler op pool.shared).2,
          pool.threads.set index (thread.advance calls (handler op pool.shared).1)⟩
  | change {log : List (Nat × Event I)} {pool : Pool program S} {state : S}
      (earlier : Timeline handler schedule initial log pool)
      (allowed : schedule.changes pool state) :
      Timeline handler schedule initial log ⟨state, pool.threads⟩

/-- The positions of two lists put together. -/
theorem getElem?_append_cases {α : Type} {first second : List α} {item : α} {place : Nat}
    (found : (first ++ second)[place]? = some item) :
    first[place]? = some item ∨
      (first.length ≤ place ∧ second[place - first.length]? = some item) := by
  rcases Nat.lt_or_ge place first.length with before | beyond
  · rw [List.getElem?_append_left before] at found
    exact .inl found
  · rw [List.getElem?_append_right beyond] at found
    exact .inr ⟨beyond, found⟩

/-- The positions of a list that has grown by one element. -/
theorem getElem?_concat {α : Type} {items : List α} {added item : α} {place : Nat}
    (found : (items ++ [added])[place]? = some item) :
    items[place]? = some item ∨ (place = items.length ∧ item = added) := by
  rcases getElem?_append_cases found with old | ⟨beyond, new⟩
  · exact .inl old
  · rw [List.getElem?_singleton] at new
    split at new
    · exact .inr ⟨by omega, (Option.some.inj new).symm⟩
    · cases new

namespace Timeline

variable {initial : S} {log : List (Nat × Event I)} {pool : Pool program S}

/-- A timeline is a run of the pool. -/
theorem steps (timeline : Timeline handler schedule initial log pool) :
    Pool.Steps handler schedule (Pool.initial program initial) pool := by
  induction timeline with
  | initial => exact .refl
  | start _ allowed inductionHypothesis => exact inductionHypothesis.tail (.start allowed)
  | perform _ found calls inductionHypothesis => exact inductionHypothesis.tail (.perform found calls)
  | change _ allowed inductionHypothesis => exact inductionHypothesis.tail (.change allowed)

/-- Every run of the pool has a timeline. -/
theorem of_steps (steps : Pool.Steps handler schedule (Pool.initial program initial) pool) :
    ∃ log, Timeline handler schedule initial log pool := by
  induction steps with
  | refl => exact ⟨[], .initial⟩
  | tail _ step inductionHypothesis =>
      obtain ⟨log, timeline⟩ := inductionHypothesis
      cases step with
      | start allowed => exact ⟨log, timeline.start allowed⟩
      | perform found calls => exact ⟨_, timeline.perform found calls⟩
      | change allowed => exact ⟨log, timeline.change allowed⟩

/-- Every event is that of a thread. -/
theorem thread_of_mem (timeline : Timeline handler schedule initial log pool) {index : Nat}
    {event : Event I} (performed : (index, event) ∈ log) :
    ∃ thread, pool.threads[index]? = some thread := by
  induction timeline with
  | initial => cases performed
  | start _ allowed inductionHypothesis =>
      obtain ⟨thread, found⟩ := inductionHypothesis performed
      have place := (List.getElem?_eq_some_iff.mp found).1
      exact ⟨thread, by rw [List.getElem?_append_left place, found]⟩
  | @perform log pool actor acting op next _ found calls inductionHypothesis =>
      rcases List.mem_append.mp performed with old | new
      · obtain ⟨thread, found'⟩ := inductionHypothesis old
        have place := (List.getElem?_eq_some_iff.mp found').1
        exact ⟨_, List.getElem?_eq_getElem (by simpa using place)⟩
      · obtain ⟨rfl, -⟩ := Prod.mk.inj (List.mem_singleton.mp new)
        have place := (List.getElem?_eq_some_iff.mp found).1
        exact ⟨_, List.getElem?_eq_getElem (by simpa using place)⟩
  | change _ allowed inductionHypothesis => exact inductionHypothesis performed

/-- The events of a thread are those of the timeline under its position. -/
theorem mem_iff (timeline : Timeline handler schedule initial log pool) {index : Nat}
    {thread : Thread program} (found : pool.threads[index]? = some thread) {event : Event I} :
    (index, event) ∈ log ↔ event ∈ thread.past := by
  induction timeline generalizing thread with
  | initial => simp [Pool.initial] at found
  | @start log pool call earlier allowed inductionHypothesis =>
      rcases Pool.getElem?_start found with old | ⟨rfl, rfl⟩
      · exact inductionHypothesis old
      · constructor
        · intro performed
          obtain ⟨thread, old⟩ := earlier.thread_of_mem performed
          simp at old
        · intro performed
          simp at performed
  | @perform log pool actor acting op next _ found' calls inductionHypothesis =>
      rw [List.mem_append, List.mem_singleton, Prod.mk.injEq]
      rcases Pool.getElem?_perform found with ⟨rfl, rfl⟩ | ⟨other, old⟩
      · rw [inductionHypothesis found', Thread.advance_past, List.mem_append, List.mem_singleton]
        simp
      · rw [inductionHypothesis old]
        simp [other]
  | change _ allowed inductionHypothesis => exact inductionHypothesis found

/-- A thread performs at most one `key` operation in a timeline when its call does. -/
theorem single {key : I.Op → Prop} (once : ∀ call, (program call).Single key)
    (timeline : Timeline handler schedule initial log pool) {index first second : Nat}
    {event event' : Event I} (atFirst : log[first]? = some (index, event))
    (atSecond : log[second]? = some (index, event')) (isKey : key event.op)
    (isKey' : key event'.op) : first = second := by
  induction timeline generalizing first second event event' with
  | initial => simp at atFirst
  | start _ _ inductionHypothesis => exact inductionHypothesis atFirst atSecond isKey isKey'
  | @perform log pool actor acting op next earlier found calls inductionHypothesis =>
      -- The thread that performs a `key` operation has performed none before.
      have none_before : key op → ∀ {place : Nat} {event : Event I},
          log[place]? = some (actor, event) → ¬ key event.op := by
        intro performs place event atPlace
        have path := acting.reached
        rw [calls] at path
        have performed := (earlier.mem_iff found).mp (List.mem_of_getElem? atPlace)
        exact ((once acting.call).around (path.snoc (handler op pool.shared).1) rfl performs).1
          event performed
      rcases getElem?_concat atFirst with old | ⟨rfl, same⟩
      · rcases getElem?_concat atSecond with old' | ⟨rfl, same'⟩
        · exact inductionHypothesis old old' isKey isKey'
        · obtain ⟨rfl, rfl⟩ := Prod.mk.inj same'
          exact absurd isKey (none_before isKey' old)
      · obtain ⟨rfl, rfl⟩ := Prod.mk.inj same
        rcases getElem?_concat atSecond with old' | ⟨rfl, -⟩
        · exact absurd isKey' (none_before isKey old')
        · rfl
  | change _ _ inductionHypothesis => exact inductionHypothesis atFirst atSecond isKey isKey'

/-- One thread goes along a path that the shared state answers. -/
theorem follow (timeline : Timeline handler schedule initial log pool) (index : Nat)
    {thread : Thread program} (found : pool.threads[index]? = some thread)
    {past : List (Event I)} {rest : Procedure I ε (ρ thread.call)}
    (path : thread.rest.Path past rest) {final : S}
    (answered : Procedure.Answered handler pool.shared past final) :
    Timeline handler schedule initial (log ++ past.map fun event => (index, event))
      ⟨final, pool.threads.set index
        ⟨thread.call, thread.past ++ past, rest, thread.reached.trans path⟩⟩ := by
  obtain ⟨state, threads⟩ := pool
  obtain ⟨call, before, current, reached⟩ := thread
  change current.Path past rest at path
  induction past generalizing log state threads before current with
  | nil =>
      obtain rfl : final = state := answered
      cases path with
      | here =>
          obtain ⟨position, present⟩ := List.getElem?_eq_some_iff.mp found
          have same : threads.set index ⟨call, before ++ [], current, reached.trans .here⟩ =
              threads := by
            simp only [List.append_nil]
            rw [← present, List.set_getElem_self]
          rw [same, List.map_nil, List.append_nil]
          exact timeline
  | cons event past inductionHypothesis =>
      cases path with
      | @next op following answer _ _ further =>
          obtain ⟨head, tail⟩ := answered
          obtain rfl : answer = (handler op state).1 := head
          have position : index < threads.length := (List.getElem?_eq_some_iff.mp found).1
          -- Perform the first operation, then follow the rest of the path.
          have performed := timeline.perform found rfl
          have continued := inductionHypothesis _ _ performed tail _ _ (reached.snoc _)
            (List.getElem?_set_self position) further
          simpa only [List.set_set, List.map_cons, List.append_assoc, List.singleton_append,
            Thread.advance] using continued

/-- A call goes along a path, the environment takes a step, and the call goes on. -/
theorem interrupted {state : S} {threads : List (Thread program)}
    (timeline : Timeline handler schedule initial log ⟨state, threads⟩) {call : C}
    (allowed : schedule.starts ⟨state, threads⟩ call) {first second : List (Event I)}
    {stopped rest : Procedure I ε (ρ call)} {middle changed final : S}
    (path : (program call).Path first stopped)
    (answered : Procedure.Answered handler state first middle)
    (changes : ∀ pool : Pool program S, pool.shared = middle → schedule.changes pool changed)
    (further : stopped.Path second rest)
    (answered' : Procedure.Answered handler changed second final) :
    ∃ later, Timeline handler schedule initial later
      ⟨final, threads ++ [⟨call, first ++ second, rest, path.trans further⟩]⟩ := by
  have reached := (timeline.start allowed).follow threads.length
    (List.getElem?_concat_length ..) path answered
  rw [List.set_append_right _ _ (Nat.le_refl _), Nat.sub_self, List.set_cons_zero] at reached
  have ended := (reached.change (changes _ rfl)).follow threads.length
    (List.getElem?_concat_length ..) further answered'
  rw [List.set_append_right _ _ (Nat.le_refl _), Nat.sub_self, List.set_cons_zero] at ended
  exact ⟨_, ended⟩

/-- A call runs from its start to its end. -/
theorem whole (timeline : Timeline handler schedule initial log pool) {call : C}
    (allowed : schedule.starts pool call) :
    Timeline handler schedule initial
      (log ++ ((program call).trace handler pool.shared).map
        fun event => (pool.threads.length, event))
      ⟨((program call).run handler pool.shared).2,
        pool.threads ++ [(Thread.start program call).complete handler pool.shared]⟩ := by
  have ran := (timeline.start allowed).follow pool.threads.length
    (List.getElem?_concat_length ..)
    (Procedure.trace_path handler (program call) pool.shared)
    (Procedure.trace_answered handler (program call) pool.shared)
  rw [List.set_append_right _ _ (Nat.le_refl _), Nat.sub_self, List.set_cons_zero] at ran
  exact ran

/-- One call stops before its last operation, a second call runs from its start to its end,
and the first performs the operation. -/
theorem overtake {state : S} {first second : C} (starts : ∀ pool, schedule.starts pool first)
    (starts' : ∀ pool, schedule.starts pool second) {past : List (Event I)} {event : Event I}
    (trace : past ++ [event] = (program first).trace handler state) :
    ∃ pool, Timeline handler schedule state
      ((past.map fun event => (0, event)) ++
        (((program second).trace handler (Procedure.replay handler state past)).map
          fun event => (1, event)) ++
        [(0, ⟨event.op, (handler event.op
          ((program second).run handler (Procedure.replay handler state past)).2).1⟩)]) pool := by
  have path := Procedure.trace_path handler (program first) state
  have answered := Procedure.trace_answered handler (program first) state
  rw [← trace] at path answered
  obtain ⟨stopped, before, after⟩ := path.split
  obtain ⟨middle, reached, -⟩ := (Procedure.answered_append handler).mp answered
  rw [← reached.final]
  have none_yet : Timeline handler schedule state [] (Pool.initial program state) := .initial
  have started := (none_yet.start (starts _)).start (starts' _)
  have waiting := started.follow 0 rfl before reached
  have overtaking := waiting.follow 1 rfl
    (Procedure.trace_path handler (program second) middle)
    (Procedure.trace_answered handler (program second) middle)
  obtain ⟨next, rfl⟩ := Procedure.path_cons_call after
  exact ⟨_, overtaking.perform (List.getElem?_cons_zero ..) rfl⟩

end Timeline

/-! ### Processes one after the other -/

/-- What one process has done, and the pool it has left. -/
structure Lifetime (program : (call : C) → Procedure I ε (ρ call)) (S : Type) where
  log : List (Nat × Event I)
  pool : Pool program S

/-- The state the last process has left, when there has been one. -/
def lastState (lifetimes : List (Lifetime program S)) : Option S :=
  lifetimes.getLast?.map (·.pool.shared)

@[simp] theorem lastState_nil : lastState ([] : List (Lifetime program S)) = none := rfl

@[simp] theorem lastState_append (lifetimes : List (Lifetime program S))
    (last : Lifetime program S) : lastState (lifetimes ++ [last]) = some last.pool.shared := by
  simp [lastState]

/-- The processes so far. Each starts from a state that `boots` lets follow the one the
process before it has left, wherever that process was stopped. -/
inductive Lifetimes (handler : Handler I S) (schedule : Schedule program S)
    (boots : Option S → S → Prop) : List (Lifetime program S) → Prop where
  | nil : Lifetimes handler schedule boots []
  | boot {lifetimes : List (Lifetime program S)} {next : Lifetime program S} {initial : S}
      (earlier : Lifetimes handler schedule boots lifetimes)
      (allowed : boots (lastState lifetimes) initial)
      (timeline : Timeline handler schedule initial next.log next.pool) :
      Lifetimes handler schedule boots (lifetimes ++ [next])

/-! ### Processes as one pool -/

/-- The calls of all processes, process by process. -/
def calls (lifetimes : List (Lifetime program S)) : List (Thread program) :=
  lifetimes.flatMap (·.pool.threads)

@[simp] theorem calls_nil : calls ([] : List (Lifetime program S)) = [] := rfl

@[simp] theorem calls_append (lifetimes : List (Lifetime program S)) (next : Lifetime program S) :
    calls (lifetimes ++ [next]) = calls lifetimes ++ next.pool.threads := by
  simp [calls]

/-- Any call may start, and the environment may also stop a process and boot the next. -/
def Schedule.restarting (schedule : Schedule program S) (boots : Option S → S → Prop) :
    Schedule program S where
  starts _ _ := True
  changes pool state :=
    (∃ threads, schedule.changes ⟨pool.shared, threads⟩ state) ∨ boots (some pool.shared) state

/-- A pool runs beside threads that have stopped as it does alone. -/
theorem Pool.Steps.beside {boots : Option S → S → Prop} {before after : Pool program S}
    (steps : Pool.Steps handler schedule before after) (stopped : List (Thread program)) :
    Pool.Steps handler (schedule.restarting boots)
      ⟨before.shared, stopped ++ before.threads⟩ ⟨after.shared, stopped ++ after.threads⟩ := by
  induction steps with
  | refl => exact .refl
  | @tail middle final _ step inductionHypothesis =>
      apply inductionHypothesis.tail
      cases step with
      | start allowed =>
          rw [← List.append_assoc]
          exact .start trivial
      | @perform index thread op next found calls =>
          have place : (stopped ++ middle.threads)[stopped.length + index]? = some thread := by
            rw [List.getElem?_append_right (Nat.le_add_right _ _), Nat.add_sub_cancel_left, found]
          have moved : Pool.Step handler (schedule.restarting boots)
              ⟨middle.shared, stopped ++ middle.threads⟩ _ := .perform place calls
          rwa [List.set_append_right _ _ (Nat.le_add_right _ _), Nat.add_sub_cancel_left] at moved
      | change allowed => exact .change (.inl ⟨_, allowed⟩)

/-- Processes one after the other are a run of one pool, which the environment restarts. -/
theorem Lifetimes.pool {boots : Option S → S → Prop} {lifetimes : List (Lifetime program S)}
    (run : Lifetimes handler schedule boots lifetimes) {state : S}
    (last : lastState lifetimes = some state) :
    ∃ initial, boots none initial ∧ Pool.Steps handler (schedule.restarting boots)
      (Pool.initial program initial) ⟨state, calls lifetimes⟩ := by
  induction run generalizing state with
  | nil => cases last
  | @boot lifetimes next initial _ allowed timeline inductionHypothesis =>
      rw [lastState_append] at last
      obtain rfl := Option.some.inj last
      have alone : Pool.Steps handler (schedule.restarting boots) _ _ :=
        timeline.steps.beside (calls lifetimes)
      rw [Pool.initial, List.append_nil] at alone
      rw [calls_append]
      cases before : lastState lifetimes with
      | none =>
          have first : lifetimes = [] := by simpa [lastState] using before
          rw [before] at allowed
          rw [first] at alone ⊢
          exact ⟨initial, allowed, alone⟩
      | some state =>
          obtain ⟨start, booted, steps⟩ := inductionHypothesis before
          rw [before] at allowed
          exact ⟨start, booted, (steps.tail (.change (.inr allowed))).trans alone⟩

end NetworkFinality.Semantics
