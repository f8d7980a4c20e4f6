import Mathlib.Logic.Relation
import NetworkFinality.Semantics.Procedure

/-!
# Pools of interleaved procedures

A pool is a shared state and any number of threads. Each thread is a call, the
events it has performed so far, and what remains of its procedure. A step starts
a call, performs the next operation of one thread, or changes the shared state
from outside. A thread that is never chosen again has stopped dead, so a pool
also covers calls that are interrupted between any two operations.

The events a thread has performed are its history. Two rules turn what one
operation does into what holds of every reachable pool: `facts_hold` carries a
fact each relied-on event establishes, and `exclusive` shows that two threads
cannot both have performed an operation that claims the same key.
-/

namespace NetworkFinality.Semantics

variable {I : Interface} {C ε S K : Type} {ρ : C → Type}

/-- One call in progress: what it has performed and what remains. -/
structure Thread (program : (call : C) → Procedure I ε (ρ call)) where
  call : C
  past : List (Event I)
  rest : Procedure I ε (ρ call)
  reached : (program call).Path past rest

namespace Thread

variable {program : (call : C) → Procedure I ε (ρ call)}

/-- A call that has performed nothing yet. -/
def start (program : (call : C) → Procedure I ε (ρ call)) (call : C) : Thread program :=
  ⟨call, [], program call, .here⟩

/-- The thread after its next operation received `answer`. -/
def advance (thread : Thread program) {op : I.Op}
    {next : I.Answer op → Procedure I ε (ρ thread.call)}
    (calls : thread.rest = .call op next) (answer : I.Answer op) : Thread program where
  call := thread.call
  past := thread.past ++ [⟨op, answer⟩]
  rest := next answer
  reached := (calls ▸ thread.reached).snoc answer

@[simp] theorem start_past (call : C) : (start program call).past = [] := rfl

@[simp] theorem start_rest (call : C) : (start program call).rest = program call := rfl

@[simp] theorem advance_call (thread : Thread program) {op : I.Op}
    {next : I.Answer op → Procedure I ε (ρ thread.call)}
    (calls : thread.rest = .call op next) (answer : I.Answer op) :
    (thread.advance calls answer).call = thread.call := rfl

@[simp] theorem advance_past (thread : Thread program) {op : I.Op}
    {next : I.Answer op → Procedure I ε (ρ thread.call)}
    (calls : thread.rest = .call op next) (answer : I.Answer op) :
    (thread.advance calls answer).past = thread.past ++ [⟨op, answer⟩] := rfl

end Thread

/-- A shared state and the threads that work on it. -/
structure Pool (program : (call : C) → Procedure I ε (ρ call)) (S : Type) where
  shared : S
  threads : List (Thread program)

/-- Which calls may start in a pool, and to which shared states the environment
may change it. -/
structure Schedule (program : (call : C) → Procedure I ε (ρ call)) (S : Type) where
  starts : Pool program S → C → Prop
  changes : Pool program S → S → Prop

namespace Pool

variable {program : (call : C) → Procedure I ε (ρ call)} {handler : Handler I S}
  {schedule : Schedule program S}

/-- One step of a pool. -/
inductive Step (handler : Handler I S) (schedule : Schedule program S) :
    Pool program S → Pool program S → Prop where
  | start {pool : Pool program S} {call : C} (allowed : schedule.starts pool call) :
      Step handler schedule pool ⟨pool.shared, pool.threads ++ [Thread.start program call]⟩
  | perform {pool : Pool program S} {index : Nat} {thread : Thread program} {op : I.Op}
      {next : I.Answer op → Procedure I ε (ρ thread.call)}
      (found : pool.threads[index]? = some thread) (calls : thread.rest = .call op next) :
      Step handler schedule pool
        ⟨(handler op pool.shared).2,
          pool.threads.set index (thread.advance calls (handler op pool.shared).1)⟩
  | change {pool : Pool program S} {state : S} (allowed : schedule.changes pool state) :
      Step handler schedule pool ⟨state, pool.threads⟩

/-- Any number of steps. -/
abbrev Steps (handler : Handler I S) (schedule : Schedule program S) :
    Pool program S → Pool program S → Prop :=
  Relation.ReflTransGen (Step handler schedule)

/-- The pool that has started no call. -/
def initial (program : (call : C) → Procedure I ε (ρ call)) (state : S) : Pool program S :=
  ⟨state, []⟩

/-- The threads after a call started. -/
theorem getElem?_start {threads : List (Thread program)} {call : C} {index : Nat}
    {thread : Thread program}
    (found : (threads ++ [Thread.start program call])[index]? = some thread) :
    threads[index]? = some thread ∨
      (index = threads.length ∧ thread = Thread.start program call) := by
  rcases Nat.lt_trichotomy index threads.length with before | at_end | beyond
  · left
    rwa [List.getElem?_append_left before] at found
  · right
    subst at_end
    rw [List.getElem?_append_right (Nat.le_refl _), Nat.sub_self] at found
    exact ⟨rfl, (Option.some.inj found).symm⟩
  · rw [List.getElem?_eq_none (by simp; omega)] at found
    cases found

/-- The threads after one of them advanced. -/
theorem getElem?_perform {threads : List (Thread program)} {actor index : Nat}
    {advanced thread : Thread program}
    (found : (threads.set actor advanced)[index]? = some thread) :
    (index = actor ∧ thread = advanced) ∨ (index ≠ actor ∧ threads[index]? = some thread) := by
  by_cases same : actor = index
  · left
    subst same
    rw [List.getElem?_set_self' ] at found
    cases present : threads[actor]? with
    | none => simp [present] at found
    | some old =>
        rw [present] at found
        exact ⟨rfl, (Option.some.inj found).symm⟩
  · right
    rw [List.getElem?_set_ne same] at found
    exact ⟨Ne.symm same, found⟩

/-- A thread keeps its call and its history through later steps. -/
theorem Steps.keeps {before after : Pool program S} (steps : Steps handler schedule before after)
    {index : Nat} {thread : Thread program} (found : before.threads[index]? = some thread) :
    ∃ later, after.threads[index]? = some later ∧ later.call = thread.call ∧
      thread.past <+: later.past := by
  induction steps with
  | refl => exact ⟨thread, found, rfl, List.prefix_rfl⟩
  | @tail middle final _ step inductionHypothesis =>
      obtain ⟨later, present, same, longer⟩ := inductionHypothesis
      cases step with
      | start allowed =>
          have place : index < middle.threads.length := (List.getElem?_eq_some_iff.mp present).1
          exact ⟨later, by rw [List.getElem?_append_left place, present], same, longer⟩
      | @perform place' actor op next found' calls =>
          by_cases acts : place' = index
          · subst acts
            obtain rfl := Option.some.inj (present.symm.trans found')
            have place : place' < middle.threads.length := (List.getElem?_eq_some_iff.mp present).1
            exact ⟨_, List.getElem?_set_self place, same,
              longer.trans (List.prefix_append _ _)⟩
          · exact ⟨later, by rw [List.getElem?_set_ne acts, present], same, longer⟩
      | change allowed => exact ⟨later, present, same, longer⟩

/-- What no call that may start undoes, and no change of the environment, still holds
after any steps of a pool of such calls. -/
theorem Steps.preserves (kept : S → Prop) {permitted : I.Op → Prop}
    (keeps : ∀ op, permitted op → ∀ state, kept state → kept (handler op state).2)
    (uses : ∀ (pool : Pool program S) (call : C), schedule.starts pool call →
      (program call).Uses permitted)
    (undisturbed : ∀ (pool : Pool program S) (state : S), schedule.changes pool state →
      kept pool.shared → kept state)
    {state : S} {pool : Pool program S} (steps : Steps handler schedule (initial program state) pool)
    (before : kept state) :
    kept pool.shared ∧ ∀ thread ∈ pool.threads, thread.rest.Uses permitted := by
  induction steps with
  | refl => exact ⟨before, by simp [initial]⟩
  | @tail middle final _ step inductionHypothesis =>
      obtain ⟨now, remaining⟩ := inductionHypothesis
      cases step with
      | start allowed =>
          refine ⟨now, fun thread member => ?_⟩
          rcases List.mem_append.mp member with old | new
          · exact remaining thread old
          · rw [List.mem_singleton.mp new]
            exact uses _ _ allowed
      | @perform index actor op next found calls =>
          have performs := remaining actor (List.mem_of_getElem? found)
          rw [calls, Procedure.uses_call] at performs
          refine ⟨keeps op performs.1 _ now, fun thread member => ?_⟩
          obtain ⟨place, atPlace⟩ := List.mem_iff_getElem?.mp member
          rcases getElem?_perform atPlace with ⟨-, rfl⟩ | ⟨-, other⟩
          · exact performs.2 _
          · exact remaining thread (List.mem_of_getElem? other)
      | change allowed => exact ⟨undisturbed _ _ allowed now, remaining⟩

/-- Carry a fact from the event that establishes it for as long as the thread
relies on the event. The threads establish it and keep it; the environment keeps
it for the threads that rely on it. -/
theorem facts_hold (fact : C → Event I → S → Prop) (relies : Thread program → Event I → Prop)
    (establishes : ∀ (thread : Thread program) (op : I.Op)
      (next : I.Answer op → Procedure I ε (ρ thread.call))
      (calls : thread.rest = .call op next) (state : S),
      relies (thread.advance calls (handler op state).1) ⟨op, (handler op state).1⟩ →
      fact thread.call ⟨op, (handler op state).1⟩ (handler op state).2)
    (carried : ∀ (thread : Thread program) (op : I.Op)
      (next : I.Answer op → Procedure I ε (ρ thread.call))
      (calls : thread.rest = .call op next) (answer : I.Answer op) (event : Event I),
      relies (thread.advance calls answer) event → relies thread event)
    (kept : ∀ (call : C) (event : Event I) (op : I.Op) (state : S),
      fact call event state → fact call event (handler op state).2)
    (undisturbed : ∀ (pool : Pool program S) (state : S), schedule.changes pool state →
      ∀ thread ∈ pool.threads, ∀ event ∈ thread.past, relies thread event →
        fact thread.call event pool.shared → fact thread.call event state)
    {state : S} {pool : Pool program S} (steps : Steps handler schedule (initial program state) pool) :
    ∀ thread ∈ pool.threads, ∀ event ∈ thread.past, relies thread event →
      fact thread.call event pool.shared := by
  induction steps with
  | refl => simp [initial]
  | tail _ step inductionHypothesis =>
      cases step with
      | start allowed =>
          intro thread member event performed
          rcases List.mem_append.mp member with old | new
          · exact inductionHypothesis thread old event performed
          · rw [List.mem_singleton.mp new] at performed
            simp at performed
      | @perform index actor op next found calls =>
          intro thread member event performed relied
          obtain ⟨position, at_position⟩ := List.mem_iff_getElem?.mp member
          rcases getElem?_perform at_position with ⟨-, rfl⟩ | ⟨-, other⟩
          · rw [Thread.advance_past, List.mem_append, List.mem_singleton] at performed
            rcases performed with earlier | rfl
            · exact kept _ _ _ _ (inductionHypothesis actor (List.mem_of_getElem? found) event
                earlier (carried _ _ _ calls _ event relied))
            · exact establishes actor op next calls _ relied
          · exact kept _ _ _ _
              (inductionHypothesis thread (List.mem_of_getElem? other) event performed relied)
      | change allowed =>
          intro thread member event performed relied
          exact undisturbed _ _ allowed thread member event performed relied
            (inductionHypothesis thread member event performed relied)

/-- Facts that need no reliance: each event establishes its fact, and neither an
operation nor the environment undoes it. -/
theorem events_hold (fact : Event I → S → Prop)
    (establishes : ∀ (op : I.Op) (state : S),
      fact ⟨op, (handler op state).1⟩ (handler op state).2)
    (kept : ∀ (event : Event I) (op : I.Op) (state : S),
      fact event state → fact event (handler op state).2)
    (undisturbed : ∀ (pool : Pool program S) (state : S), schedule.changes pool state →
      ∀ event, fact event pool.shared → fact event state)
    {state : S} {pool : Pool program S} (steps : Steps handler schedule (initial program state) pool) :
    ∀ thread ∈ pool.threads, ∀ event ∈ thread.past, fact event pool.shared := by
  intro thread member event performed
  exact facts_hold (fun _ => fact) (fun _ _ => True)
    (fun _ op _ _ state _ => establishes op state) (fun _ _ _ _ _ _ _ => trivial)
    (fun _ event op state => kept event op state)
    (fun pool state allowed _ _ event _ _ => undisturbed pool state allowed event)
    steps thread member event performed trivial

/-- What the shared state shows has an origin: some thread performed the event
that brought it about. -/
theorem provenance (shows : S → Prop) (origin : Event I → Prop)
    (brought : ∀ (op : I.Op) (state : S), shows (handler op state).2 →
      shows state ∨ origin ⟨op, (handler op state).1⟩)
    (undisturbed : ∀ (pool : Pool program S) (state : S), schedule.changes pool state →
      shows state → shows pool.shared)
    {state : S} (nothing : ¬ shows state) {pool : Pool program S}
    (steps : Steps handler schedule (initial program state) pool) (shown : shows pool.shared) :
    ∃ thread ∈ pool.threads, ∃ event ∈ thread.past, origin event := by
  induction steps with
  | refl => exact absurd shown nothing
  | @tail middle final _ step inductionHypothesis =>
      cases step with
      | start allowed =>
          obtain ⟨thread, member, found⟩ := inductionHypothesis shown
          exact ⟨thread, List.mem_append_left _ member, found⟩
      | @perform index actor op next found calls =>
          have position : index < middle.threads.length := (List.getElem?_eq_some_iff.mp found).1
          have performed : actor.advance calls (handler op middle.shared).1 ∈
              middle.threads.set index (actor.advance calls (handler op middle.shared).1) :=
            List.mem_set position _
          rcases brought op middle.shared shown with earlier | now
          · obtain ⟨thread, member, event, past, from_⟩ := inductionHypothesis earlier
            obtain ⟨place, atPlace⟩ := List.mem_iff_getElem?.mp member
            by_cases same : place = index
            · subst same
              obtain rfl := Option.some.inj (found.symm.trans atPlace)
              exact ⟨_, performed, event, List.mem_append_left _ past, from_⟩
            · refine ⟨thread, ?_, event, past, from_⟩
              apply List.mem_iff_getElem?.mpr
              exact ⟨place, by rw [List.getElem?_set_ne (Ne.symm same), atPlace]⟩
          · exact ⟨_, performed, _, List.mem_append_right _ (List.mem_singleton.mpr rfl), now⟩
      | change allowed => exact inductionHypothesis (undisturbed _ _ allowed shown)

/-! ### Keys held by at most one thread -/

/-- Threads hold keys that the shared state shows as taken, and no two threads
hold one key. -/
structure Held (holds : Thread program → K → Prop) (taken : K → S → Prop)
    (pool : Pool program S) : Prop where
  taken : ∀ thread ∈ pool.threads, ∀ key, holds thread key → taken key pool.shared
  exclusive : ∀ {i j : Nat} {first second : Thread program} {key : K},
    pool.threads[i]? = some first → pool.threads[j]? = some second →
    holds first key → holds second key → i = j

/-- A key is acquired only while it is free, and freed only by the thread that
holds it. -/
theorem held (holds : Thread program → K → Prop) (taken : K → S → Prop)
    (starts : ∀ (call : C) (key : K), ¬ holds (Thread.start program call) key)
    (acquires : ∀ (thread : Thread program) (op : I.Op)
      (next : I.Answer op → Procedure I ε (ρ thread.call)) (calls : thread.rest = .call op next)
      (state : S) (key : K), holds (thread.advance calls (handler op state).1) key →
      (holds thread key ∧ (taken key state → taken key (handler op state).2)) ∨
        (¬ taken key state ∧ taken key (handler op state).2))
    (frees : ∀ (thread : Thread program) (op : I.Op)
      (next : I.Answer op → Procedure I ε (ρ thread.call)) (_ : thread.rest = .call op next)
      (state : S) (key : K), taken key state → taken key (handler op state).2 ∨ holds thread key)
    (undisturbed : ∀ (pool : Pool program S) (state : S), schedule.changes pool state →
      ∀ key, taken key pool.shared → taken key state)
    {state : S} {pool : Pool program S}
    (steps : Steps handler schedule (initial program state) pool) : Held holds taken pool := by
  induction steps with
  | refl => exact ⟨by simp [initial], by simp [initial]⟩
  | @tail middle final _ step inductionHypothesis =>
      cases step with
      | start allowed =>
          refine ⟨?_, ?_⟩
          · intro thread member key holding
            rcases List.mem_append.mp member with old | new
            · exact inductionHypothesis.taken thread old key holding
            · rw [List.mem_singleton.mp new] at holding
              exact absurd holding (starts _ key)
          · intro i j first second key atFirst atSecond holding holding'
            rcases getElem?_start atFirst with old | ⟨-, rfl⟩
            · rcases getElem?_start atSecond with old' | ⟨-, rfl⟩
              · exact inductionHypothesis.exclusive old old' holding holding'
              · exact absurd holding' (starts _ key)
            · exact absurd holding (starts _ key)
      | @perform index actor op next found calls =>
          -- The actor holds a key afterwards only if nobody else held it before.
          have alone : ∀ {place : Nat} {thread : Thread program} {key : K}, place ≠ index →
              middle.threads[place]? = some thread → holds thread key →
              ¬ holds (actor.advance calls (handler op middle.shared).1) key := by
            intro place thread key elsewhere atPlace holding acquired
            rcases acquires actor op next calls _ key acquired with ⟨before, -⟩ | ⟨free, -⟩
            · exact elsewhere (inductionHypothesis.exclusive atPlace found holding before)
            · exact free (inductionHypothesis.taken thread (List.mem_of_getElem? atPlace) key
                holding)
          refine ⟨?_, ?_⟩
          · intro thread member key holding
            obtain ⟨place, atPlace⟩ := List.mem_iff_getElem?.mp member
            rcases getElem?_perform atPlace with ⟨-, rfl⟩ | ⟨elsewhere, other⟩
            · rcases acquires actor op next calls _ key holding with ⟨before, keeps⟩ | ⟨-, now⟩
              · exact keeps (inductionHypothesis.taken actor (List.mem_of_getElem? found) key before)
              · exact now
            · have before := inductionHypothesis.taken thread (List.mem_of_getElem? other) key holding
              rcases frees actor op next calls _ key before with still | freed
              · exact still
              · exact absurd (inductionHypothesis.exclusive other found holding freed) elsewhere
          · intro i j first second key atFirst atSecond holding holding'
            rcases getElem?_perform atFirst with ⟨rfl, rfl⟩ | ⟨elsewhere, other⟩
            · rcases getElem?_perform atSecond with ⟨rfl, -⟩ | ⟨elsewhere', other'⟩
              · rfl
              · exact absurd holding (alone elsewhere' other' holding')
            · rcases getElem?_perform atSecond with ⟨rfl, rfl⟩ | ⟨-, other'⟩
              · exact absurd holding' (alone elsewhere other holding)
              · exact inductionHypothesis.exclusive other other' holding holding'
      | change allowed =>
          refine ⟨?_, inductionHypothesis.exclusive⟩
          intro thread member key holding
          exact undisturbed _ _ allowed key (inductionHypothesis.taken thread member key holding)

/-- An operation that claims a key only when the key is free, and takes it for
good, is performed for that key by at most one thread. -/
theorem exclusive (claims : Event I → K → Prop) (taken : K → S → Prop)
    (free : ∀ (op : I.Op) (state : S) (key : K), claims ⟨op, (handler op state).1⟩ key →
      ¬ taken key state ∧ taken key (handler op state).2)
    (kept : ∀ (key : K) (op : I.Op) (state : S), taken key state → taken key (handler op state).2)
    (undisturbed : ∀ (pool : Pool program S) (state : S), schedule.changes pool state →
      ∀ key, taken key pool.shared → taken key state)
    {state : S} {pool : Pool program S} (steps : Steps handler schedule (initial program state) pool) :
    Held (fun thread key => ∃ event ∈ thread.past, claims event key) taken pool := by
  apply held _ taken _ _ _ undisturbed steps
  · rintro call key ⟨event, performed, -⟩
    simp at performed
  · rintro thread op next calls state key ⟨event, performed, claim⟩
    rw [Thread.advance_past, List.mem_append, List.mem_singleton] at performed
    rcases performed with earlier | rfl
    · exact .inl ⟨⟨event, earlier, claim⟩, kept key op state⟩
    · exact .inr (free op state key claim)
  · intro thread op next calls state key before
    exact .inl (kept key op state before)

/-- A key that is taken was taken at first, or a thread holds it. Whoever takes a key
holds it, and whoever stops holding a key frees it. -/
theorem holder (holds : Thread program → K → Prop) (taken : K → S → Prop)
    (brought : ∀ (thread : Thread program) (op : I.Op)
      (next : I.Answer op → Procedure I ε (ρ thread.call)) (calls : thread.rest = .call op next)
      (state : S) (key : K), taken key (handler op state).2 →
      holds (thread.advance calls (handler op state).1) key ∨
        (taken key state ∧ ¬ holds thread key))
    (undisturbed : ∀ (pool : Pool program S) (state : S), schedule.changes pool state →
      ∀ key, taken key state → taken key pool.shared)
    {state : S} {pool : Pool program S}
    (steps : Steps handler schedule (initial program state) pool) {key : K}
    (now : taken key pool.shared) :
    taken key state ∨ ∃ thread ∈ pool.threads, holds thread key := by
  induction steps with
  | refl => exact .inl now
  | @tail middle final _ step inductionHypothesis =>
      cases step with
      | start allowed =>
          rcases inductionHypothesis now with first | ⟨thread, member, holding⟩
          · exact .inl first
          · exact .inr ⟨thread, List.mem_append_left _ member, holding⟩
      | @perform index actor op next found calls =>
          have position : index < middle.threads.length := (List.getElem?_eq_some_iff.mp found).1
          rcases brought actor op next calls _ key now with holding | ⟨before, free⟩
          · exact .inr ⟨_, List.mem_set position _, holding⟩
          · rcases inductionHypothesis before with first | ⟨thread, member, holding⟩
            · exact .inl first
            · obtain ⟨place, atPlace⟩ := List.mem_iff_getElem?.mp member
              by_cases same : place = index
              · subst same
                obtain rfl := Option.some.inj (found.symm.trans atPlace)
                exact absurd holding free
              · refine .inr ⟨thread, List.mem_iff_getElem?.mpr ⟨place, ?_⟩, holding⟩
                rw [List.getElem?_set_ne (Ne.symm same), atPlace]
      | change allowed => exact inductionHypothesis (undisturbed _ _ allowed key now)

/-- Calls that start under a fresh key have different keys. -/
theorem distinct_starts (key : C → Option K)
    (fresh : ∀ (pool : Pool program S) (call : C), schedule.starts pool call →
      ∀ thread ∈ pool.threads, ∀ k, key thread.call = some k → key call ≠ some k)
    {state : S} {pool : Pool program S} (steps : Steps handler schedule (initial program state) pool)
    {i j : Nat} {first second : Thread program} {k : K} (atFirst : pool.threads[i]? = some first)
    (atSecond : pool.threads[j]? = some second) (named : key first.call = some k)
    (named' : key second.call = some k) : i = j := by
  induction steps generalizing i j first second with
  | refl => simp [initial] at atFirst
  | tail _ step inductionHypothesis =>
      cases step with
      | start allowed =>
          rcases getElem?_start atFirst with old | ⟨rfl, rfl⟩
          · rcases getElem?_start atSecond with old' | ⟨rfl, rfl⟩
            · exact inductionHypothesis old old' named named'
            · exact absurd named' (fresh _ _ allowed first (List.mem_of_getElem? old) k named)
          · rcases getElem?_start atSecond with old' | ⟨rfl, -⟩
            · exact absurd named (fresh _ _ allowed second (List.mem_of_getElem? old') k named')
            · rfl
      | perform found calls =>
          rcases getElem?_perform atFirst with ⟨rfl, rfl⟩ | ⟨-, other⟩
          · rcases getElem?_perform atSecond with ⟨rfl, -⟩ | ⟨-, other'⟩
            · rfl
            · exact inductionHypothesis found other' named named'
          · rcases getElem?_perform atSecond with ⟨rfl, rfl⟩ | ⟨-, other'⟩
            · exact inductionHypothesis other found named named'
            · exact inductionHypothesis other other' named named'
      | change allowed => exact inductionHypothesis atFirst atSecond named named'

/-! ### What is performed from some point on -/

/-- The call with this index has performed the event. -/
def HasPerformed (pool : Pool program S) (index : Nat) (event : Event I) : Prop :=
  ∃ thread, pool.threads[index]? = some thread ∧ event ∈ thread.past

/-- What every operation establishes from some point on holds of every event, unless its call
has performed it before that point. -/
theorem since (kept : S → Prop) (fact : Event I → Prop)
    (keeps : ∀ (op : I.Op) (state : S), kept state → kept (handler op state).2)
    (undisturbed : ∀ (pool : Pool program S) (state : S), schedule.changes pool state →
      kept pool.shared → kept state)
    (establishes : ∀ (op : I.Op) (state : S), kept state → fact ⟨op, (handler op state).1⟩)
    {before after : Pool program S} (steps : Steps handler schedule before after)
    (now : kept before.shared) :
    kept after.shared ∧ ∀ (index : Nat) (thread : Thread program),
      after.threads[index]? = some thread →
      ∀ event ∈ thread.past, fact event ∨ before.HasPerformed index event := by
  induction steps with
  | refl => exact ⟨now, fun index thread found event performed => .inr ⟨thread, found, performed⟩⟩
  | tail _ step inductionHypothesis =>
      obtain ⟨still, earlier⟩ := inductionHypothesis
      cases step with
      | start allowed =>
          refine ⟨still, fun index thread found event performed => ?_⟩
          rcases getElem?_start found with old | ⟨-, rfl⟩
          · exact earlier index thread old event performed
          · simp at performed
      | @perform actorIndex actor op next found' calls =>
          refine ⟨keeps op _ still, fun index thread found event performed => ?_⟩
          rcases getElem?_perform found with ⟨rfl, rfl⟩ | ⟨-, other⟩
          · rw [Thread.advance_past, List.mem_append, List.mem_singleton] at performed
            rcases performed with old | rfl
            · exact earlier index actor found' event old
            · exact .inl (establishes op _ still)
          · exact earlier index thread other event performed
      | change allowed => exact ⟨undisturbed _ _ allowed still, earlier⟩

/-! ### Answers that stay current -/

/-- Operations that only read, whose answers only the environment can change. -/
structure Observes (handler : Handler I S) (reads : I.Op → Prop) : Prop where
  stable : ∀ op, reads op → ∀ (other : I.Op) (state : S),
    (handler op (handler other state).2).1 = (handler op state).1

/-- In an uninterrupted run every such answer is that of the first state. -/
theorem Observes.answers {reads : I.Op → Prop} (observes : Observes handler reads)
    {state final : S} {past : List (Event I)}
    (answered : Procedure.Answered handler state past final) :
    ∀ event ∈ past, reads event.op → event.answer = (handler event.op state).1 := by
  induction past generalizing state with
  | nil => simp
  | cons first past inductionHypothesis =>
      obtain ⟨head, tail⟩ := answered
      intro event member read
      rcases List.mem_cons.mp member with rfl | member
      · exact head
      · rw [inductionHypothesis tail event member read, observes.stable _ read]

/-- After an uninterrupted run every such operation has the answer it had before. -/
theorem Observes.final {reads : I.Op → Prop} (observes : Observes handler reads)
    {state final : S} {past : List (Event I)}
    (answered : Procedure.Answered handler state past final) {op : I.Op} (read : reads op) :
    (handler op final).1 = (handler op state).1 := by
  refine answered.keeps handler (fun after => (handler op after).1 = (handler op state).1) ?_ rfl
  intro event _ after same
  rw [observes.stable op read, same]

/-- While the environment changes no answer that a thread relies on, every such
answer is the current one. -/
theorem answers_current {reads : I.Op → Prop} (observes : Observes handler reads)
    (relies : Thread program → I.Op → Prop)
    (carried : ∀ (thread : Thread program) (op : I.Op)
      (next : I.Answer op → Procedure I ε (ρ thread.call)) (calls : thread.rest = .call op next)
      (answer : I.Answer op) (read : I.Op), relies (thread.advance calls answer) read →
      relies thread read)
    (undisturbed : ∀ (pool : Pool program S) (state : S), schedule.changes pool state →
      ∀ thread ∈ pool.threads, ∀ event ∈ thread.past, reads event.op → relies thread event.op →
        (handler event.op state).1 = (handler event.op pool.shared).1)
    {state : S} {pool : Pool program S} (steps : Steps handler schedule (initial program state) pool) :
    ∀ thread ∈ pool.threads, ∀ event ∈ thread.past, reads event.op → relies thread event.op →
      event.answer = (handler event.op pool.shared).1 := by
  intro thread member event performed read relied
  have current := facts_hold
    (fun _ event state => reads event.op → event.answer = (handler event.op state).1)
    (fun thread event => relies thread event.op) ?_ ?_ ?_ ?_ steps
  · exact current thread member event performed relied read
  · intro thread op next calls state _ reading
    exact (observes.stable op reading op state).symm
  · intro thread op next calls answer event relying
    exact carried thread op next calls answer event.op relying
  · intro call event op state before reading
    rw [observes.stable event.op reading op state]
    exact before reading
  · intro pool state allowed thread member event performed relying before reading
    rw [undisturbed pool state allowed thread member event performed reading relying]
    exact before reading

/-- While the environment changes no answer that a thread of a kind may ask for again,
every answer such a thread has received to one question is the same. -/
theorem answers_agree {reads : I.Op → Prop} (observes : Observes handler reads)
    (kind : Thread program → Prop)
    (carried : ∀ (thread : Thread program) (op : I.Op)
      (next : I.Answer op → Procedure I ε (ρ thread.call)) (calls : thread.rest = .call op next)
      (answer : I.Answer op), kind (thread.advance calls answer) → kind thread)
    (undisturbed : ∀ (pool : Pool program S) (state : S), schedule.changes pool state →
      ∀ thread ∈ pool.threads, kind thread → ∀ event ∈ thread.past, reads event.op →
        thread.rest.MayPerform event.op →
        (handler event.op state).1 = (handler event.op pool.shared).1)
    {state : S} {pool : Pool program S} (steps : Steps handler schedule (initial program state) pool) :
    ∀ thread ∈ pool.threads, kind thread → ∀ (op : I.Op) (first second : I.Answer op), reads op →
      ⟨op, first⟩ ∈ thread.past → ⟨op, second⟩ ∈ thread.past → first = second := by
  induction steps with
  | refl => simp [initial]
  | @tail middle final before step inductionHypothesis =>
      cases step with
      | start allowed =>
          intro thread member isKind op first second read asked asked'
          rcases List.mem_append.mp member with old | new
          · exact inductionHypothesis thread old isKind op first second read asked asked'
          · rw [List.mem_singleton.mp new] at asked
            simp at asked
      | @perform index actor performed next found calls =>
          intro thread member isKind op first second read asked asked'
          obtain ⟨place, atPlace⟩ := List.mem_iff_getElem?.mp member
          rcases getElem?_perform atPlace with ⟨-, rfl⟩ | ⟨-, other⟩
          · have actorMember := List.mem_of_getElem? found
            -- An earlier answer to the operation just performed is still current.
            have wasKind := carried actor performed next calls _ isKind
            have current : ∀ answer : I.Answer performed, reads performed →
                ⟨performed, answer⟩ ∈ actor.past →
                answer = (handler performed middle.shared).1 := by
              intro answer reading earlier
              refine answers_current observes
                (fun thread op => kind thread ∧ thread.rest.MayPerform op) ?_ ?_ before actor
                actorMember ⟨performed, answer⟩ earlier reading ⟨wasKind, ?_⟩
              · rintro thread op next calls answer read ⟨isKind, may⟩
                have path : thread.rest.Path [⟨op, answer⟩] (next answer) := by
                  rw [calls]
                  exact .next .here
                exact ⟨carried thread op next calls answer isKind, may.earlier path⟩
              · rintro pool state allowed thread member event performed reading ⟨isKind, may⟩
                exact undisturbed pool state allowed thread member isKind event performed reading may
              · exact ⟨[], next, by rw [calls]; exact .here⟩
            rw [Thread.advance_past, List.mem_append, List.mem_singleton] at asked asked'
            rcases asked with earlier | now
            · rcases asked' with earlier' | now'
              · exact inductionHypothesis actor actorMember wasKind op first second read earlier earlier'
              · obtain ⟨rfl, same⟩ := Event.mk.inj now'
                rw [eq_of_heq same]
                exact current first read earlier
            · obtain ⟨rfl, same⟩ := Event.mk.inj now
              rcases asked' with earlier' | now'
              · rw [eq_of_heq same]
                exact (current second read earlier').symm
              · rw [eq_of_heq same, eq_of_heq (Event.mk.inj now').2]
          · exact inductionHypothesis thread (List.mem_of_getElem? other) isKind op first second
              read asked asked'
      | change allowed => exact inductionHypothesis

end Pool
end NetworkFinality.Semantics
