import NetworkFinality.Semantics.LockedPool
import NetworkFinality.Semantics.Serial

/-!
# Linearizations

In a linearization every call takes effect at one instant, as if it ran alone there from
its first operation to its last. The calls that have taken effect form a serial history.
Each call that has ended is among them, with an answer like the one it has given.

A run only appends to the calls that have taken effect, so a call that ends before
another one starts also takes effect before it. `LinearizationPoints` is the rule: it
says of every thread whether it waits for its instant or is done with it.
-/

namespace NetworkFinality.Semantics

variable {I : Interface} {C ε S : Type} {ρ : C → Type}

/-- The calls that have taken effect, each with the index of its thread, and the state
they have led to. -/
structure Linearization (program : (call : C) → Procedure I ε (ρ call)) (handler : Handler I S)
    (changes : S → S → Prop)
    (alike : (call : C) → Except ε (ρ call) → Except ε (ρ call) → Prop) (initial : S)
    (pool : Pool program S) (taken : List (Nat × Turn C S)) (state : S) : Prop where
  history : History program handler changes initial (taken.map Prod.snd) state
  once : (taken.map Prod.fst).Nodup
  answers : ∀ index turn, (index, turn) ∈ taken → ∃ thread, pool.threads[index]? = some thread ∧
    turn.call = thread.call ∧ ∀ outcome, thread.rest = .ended outcome →
      alike thread.call outcome ((program thread.call).run handler turn.before).1
  complete : ∀ index thread, pool.threads[index]? = some thread → thread.Finished →
    index ∈ taken.map Prod.fst
  settled : (∀ thread ∈ pool.threads, thread.Finished) → state = pool.shared

/-- When calls take effect. A thread is `waiting` until its call takes effect, and is
`done` with it from then on; `moves` is what calls do to the shared state, and `near` is how
far the pool is from the serial history. -/
structure LinearizationPoints (program : (call : C) → Procedure I ε (ρ call))
    (handler : Handler I S) (schedule : Schedule program S) (changes : S → S → Prop)
    (alike : (call : C) → Except ε (ρ call) → Except ε (ρ call) → Prop)
    (good : Pool program S → Prop) (waiting : Thread program → S → Prop)
    (done : Thread program → S → S → Prop) (moves : S → S → Prop)
    (near : Pool program S → S → Prop) : Prop where
  initial : ∀ state, near (Pool.initial program state) state
  start : ∀ {pool call state}, schedule.starts pool call → near pool state →
    waiting (Thread.start program call) pool.shared ∧
      near ⟨pool.shared, pool.threads ++ [Thread.start program call]⟩ state
  unfinished : ∀ {thread now}, waiting thread now → ¬ thread.Finished
  alike : ∀ {thread before now outcome}, done thread before now → thread.rest = .ended outcome →
    alike thread.call outcome ((program thread.call).run handler before).1
  settled : ∀ {pool state}, near pool state → (∀ thread ∈ pool.threads, thread.Finished) →
    state = pool.shared
  waiting_moves : ∀ {thread now later}, moves now later → waiting thread now → waiting thread later
  done_moves : ∀ {thread before now later}, moves now later → done thread before now →
    done thread before later
  /-- A thread that waits goes on waiting, or its call takes effect. -/
  waits : ∀ {pool state index thread op} {next : I.Answer op → Procedure I ε (ρ thread.call)}
    (_ : pool.threads[index]? = some thread) (calls : thread.rest = .call op next),
    near pool state → good pool →
    good ⟨(handler op pool.shared).2,
      pool.threads.set index (thread.advance calls (handler op pool.shared).1)⟩ →
    waiting thread pool.shared →
    moves pool.shared (handler op pool.shared).2 ∧ ∃ takes : Bool, near
      ⟨(handler op pool.shared).2,
        pool.threads.set index (thread.advance calls (handler op pool.shared).1)⟩
      (if takes then ((program thread.call).run handler state).2 else state) ∧
      if takes then done (thread.advance calls (handler op pool.shared).1) state
        (handler op pool.shared).2
      else waiting (thread.advance calls (handler op pool.shared).1) (handler op pool.shared).2
  /-- A thread whose call has taken effect goes on. -/
  goes_on : ∀ {pool state index thread op before}
    {next : I.Answer op → Procedure I ε (ρ thread.call)}
    (_ : pool.threads[index]? = some thread) (calls : thread.rest = .call op next),
    near pool state → good pool → done thread before pool.shared →
    moves pool.shared (handler op pool.shared).2 ∧
      done (thread.advance calls (handler op pool.shared).1) before (handler op pool.shared).2 ∧
      near ⟨(handler op pool.shared).2,
        pool.threads.set index (thread.advance calls (handler op pool.shared).1)⟩ state
  /-- The environment changes the state between calls. -/
  change : ∀ {pool later}, schedule.changes pool later →
    changes pool.shared later ∧ (∀ thread ∈ pool.threads, thread.Finished) ∧
      near ⟨later, pool.threads⟩ later
  done_change : ∀ {thread before now later}, thread.Finished → done thread before now →
    done thread before later

namespace LinearizationPoints

variable {program : (call : C) → Procedure I ε (ρ call)} {handler : Handler I S}
  {schedule : Schedule program S} {changes : S → S → Prop}
  {alike : (call : C) → Except ε (ρ call) → Except ε (ρ call) → Prop}
  {good : Pool program S → Prop} {waiting : Thread program → S → Prop}
  {done : Thread program → S → S → Prop} {moves : S → S → Prop}
  {near : Pool program S → S → Prop} {initial : S}

/-- What the rule maintains: who has taken effect, who waits, and how near the history is. -/
structure Maintains (program : (call : C) → Procedure I ε (ρ call)) (handler : Handler I S)
    (changes : S → S → Prop) (waiting : Thread program → S → Prop)
    (done : Thread program → S → S → Prop) (near : Pool program S → S → Prop) (initial : S)
    (pool : Pool program S) (taken : List (Nat × Turn C S)) : Prop where
  once : (taken.map Prod.fst).Nodup
  own : ∀ index turn, (index, turn) ∈ taken → ∃ thread, pool.threads[index]? = some thread ∧
    turn.call = thread.call ∧ done thread turn.before pool.shared
  others : ∀ index thread, pool.threads[index]? = some thread → index ∉ taken.map Prod.fst →
    waiting thread pool.shared
  near : ∃ state, History program handler changes initial (taken.map Prod.snd) state ∧
    near pool state

variable (points : LinearizationPoints program handler schedule changes alike good waiting done
  moves near)
include points

theorem maintains_initial :
    Maintains program handler changes waiting done near initial (Pool.initial program initial) [] where
  once := .nil
  own := by simp
  others := by simp [Pool.initial]
  near := ⟨initial, .start, points.initial initial⟩

/-- What is maintained gives a linearization. -/
theorem Maintains.linearization {pool : Pool program S} {taken : List (Nat × Turn C S)}
    (maintained : Maintains program handler changes waiting done near initial pool taken) :
    ∃ state, Linearization program handler changes alike initial pool taken state := by
  obtain ⟨state, history, near⟩ := maintained.near
  refine ⟨state, history, maintained.once, ?_, ?_, points.settled near⟩
  · intro index turn listed
    obtain ⟨thread, found, same, finished⟩ := maintained.own index turn listed
    exact ⟨thread, found, same, fun outcome ended => points.alike finished ended⟩
  · intro index thread found finished
    by_contra missing
    exact points.unfinished (maintained.others index thread found missing) finished

/-- The threads after one of them has advanced without taking effect. -/
private theorem maintains_advance {pool : Pool program S} {taken : List (Nat × Turn C S)}
    (maintained : Maintains program handler changes waiting done near initial pool taken)
    {index : Nat} {thread after : Thread program} {later state : S}
    (found : pool.threads[index]? = some thread) (same : after.call = thread.call)
    (moved : moves pool.shared later)
    (own : ∀ turn, (index, turn) ∈ taken → done after turn.before later)
    (others : index ∉ taken.map Prod.fst → waiting after later)
    (history : History program handler changes initial (taken.map Prod.snd) state)
    (close : near ⟨later, pool.threads.set index after⟩ state) :
    Maintains program handler changes waiting done near initial
      ⟨later, pool.threads.set index after⟩ taken where
  once := maintained.once
  own := by
    intro place turn listed
    obtain ⟨old, atPlace, call, finished⟩ := maintained.own place turn listed
    by_cases acts : place = index
    · subst acts
      obtain rfl := Option.some.inj (found.symm.trans atPlace)
      refine ⟨after, ?_, call.trans same.symm, own turn listed⟩
      exact List.getElem?_set_self (List.getElem?_eq_some_iff.mp found).1
    · exact ⟨old, by rw [List.getElem?_set_ne (Ne.symm acts), atPlace], call,
        points.done_moves moved finished⟩
  others := by
    intro place other atPlace missing
    rcases Pool.getElem?_perform atPlace with ⟨rfl, rfl⟩ | ⟨-, old⟩
    · exact others missing
    · exact points.waiting_moves moved (maintained.others place other old missing)
  near := ⟨state, history, close⟩

/-- The threads after the call of one of them has taken effect. -/
private theorem maintains_take {pool : Pool program S} {taken : List (Nat × Turn C S)}
    (maintained : Maintains program handler changes waiting done near initial pool taken)
    {index : Nat} {thread after : Thread program} {later state : S}
    (found : pool.threads[index]? = some thread) (same : after.call = thread.call)
    (missing : index ∉ taken.map Prod.fst) (moved : moves pool.shared later)
    (own : done after state later)
    (history : History program handler changes initial (taken.map Prod.snd) state)
    (close : near ⟨later, pool.threads.set index after⟩
      ((program thread.call).run handler state).2) :
    Maintains program handler changes waiting done near initial
      ⟨later, pool.threads.set index after⟩ (taken ++ [(index, ⟨thread.call, state⟩)]) where
  once := by
    rw [List.map_append]
    exact List.nodup_append.mpr ⟨maintained.once, by simp, by
      rintro _ member _ (last : _ ∈ [index]) rfl
      exact missing (List.mem_singleton.mp last ▸ member)⟩
  own := by
    intro place turn listed
    rcases List.mem_append.mp listed with earlier | now
    · have elsewhere : place ≠ index := by
        rintro rfl
        exact missing (List.mem_map_of_mem earlier)
      obtain ⟨old, atPlace, call, finished⟩ := maintained.own place turn earlier
      exact ⟨old, by rw [List.getElem?_set_ne (Ne.symm elsewhere), atPlace], call,
        points.done_moves moved finished⟩
    · obtain ⟨rfl, rfl⟩ := Prod.mk.inj (List.mem_singleton.mp now)
      exact ⟨after, List.getElem?_set_self (List.getElem?_eq_some_iff.mp found).1, same.symm, own⟩
  others := by
    intro place other atPlace absent
    rw [List.map_append, List.mem_append, not_or] at absent
    rcases Pool.getElem?_perform atPlace with ⟨rfl, rfl⟩ | ⟨-, old⟩
    · exact absurd (List.mem_singleton_self _) absent.2
    · exact points.waiting_moves moved (maintained.others place other old absent.1)
  near := ⟨_, by rw [List.map_append]; exact .call history _, close⟩

/-- Every step maintains it, with at most one call that takes effect. -/
theorem maintains_step {pool after : Pool program S} {taken : List (Nat × Turn C S)}
    (maintained : Maintains program handler changes waiting done near initial pool taken)
    (step : Pool.Step handler schedule pool after) (before : good pool) (now : good after) :
    ∃ further, Maintains program handler changes waiting done near initial after
      (taken ++ further) := by
  obtain ⟨state, history, close⟩ := maintained.near
  cases step with
  | @start call allowed =>
      obtain ⟨fresh, close⟩ := points.start allowed close
      refine ⟨[], ?_⟩
      rw [List.append_nil]
      refine ⟨maintained.once, ?_, ?_, ⟨state, history, close⟩⟩
      · intro index turn listed
        obtain ⟨thread, found, call, finished⟩ := maintained.own index turn listed
        have place : index < pool.threads.length := (List.getElem?_eq_some_iff.mp found).1
        exact ⟨thread, by rw [List.getElem?_append_left place, found], call, finished⟩
      · intro index thread found missing
        rcases Pool.getElem?_start found with old | ⟨-, rfl⟩
        · exact maintained.others index thread old missing
        · exact fresh
  | @perform index thread op next found calls =>
      by_cases listed : index ∈ taken.map Prod.fst
      · obtain ⟨⟨place, turn⟩, member, rfl⟩ := List.mem_map.mp listed
        refine ⟨[], ?_⟩
        rw [List.append_nil]
        have goesOn : ∀ turn, (place, turn) ∈ taken → moves pool.shared (handler op pool.shared).2 ∧
            done (thread.advance calls (handler op pool.shared).1) turn.before
              (handler op pool.shared).2 ∧
            near ⟨(handler op pool.shared).2,
              pool.threads.set place (thread.advance calls (handler op pool.shared).1)⟩ state := by
          intro turn member
          obtain ⟨old, atPlace, -, finished⟩ := maintained.own place turn member
          obtain rfl := Option.some.inj (found.symm.trans atPlace)
          exact points.goes_on found calls close before finished
        exact maintains_advance points maintained found rfl (goesOn turn member).1
          (fun turn member => (goesOn turn member).2.1) (absurd listed) history
          (goesOn turn member).2.2
      · obtain ⟨moved, takes, close, next⟩ := points.waits found calls close before now
          (maintained.others index thread found listed)
        cases takes with
        | true => exact ⟨_, maintains_take points maintained found rfl listed moved next history close⟩
        | false =>
            refine ⟨[], ?_⟩
            rw [List.append_nil]
            exact maintains_advance points maintained found rfl moved
              (fun turn member => absurd (List.mem_map_of_mem member) listed) (fun _ => next)
              history close
  | @change later allowed =>
      obtain ⟨changed, finished, close'⟩ := points.change allowed
      obtain rfl := points.settled close finished
      refine ⟨[], ?_⟩
      rw [List.append_nil]
      refine ⟨maintained.once, ?_, ?_, ⟨later, .change history changed, close'⟩⟩
      · intro index turn listed
        obtain ⟨thread, found, call, ended⟩ := maintained.own index turn listed
        exact ⟨thread, found, call,
          points.done_change (finished thread (List.mem_of_getElem? found)) ended⟩
      · intro index thread found missing
        exact absurd (finished thread (List.mem_of_getElem? found))
          (points.unfinished (maintained.others index thread found missing))

end LinearizationPoints
end NetworkFinality.Semantics
