import Mathlib.Logic.Function.Basic
import NetworkFinality.Semantics.Timeline

/-!
# Processes that share a part of their states

Every process has a state of its own, a part of which all processes share: what one process
writes there, every other one sees with its next operation. The threads are those of all
processes.

`Run.timeline` reduces such a run to a run of one pool. Seen from one process, the others are
an environment that keeps the shared part between the operations, which changes the state to
that of the process that is about to act.
-/

namespace NetworkFinality.Semantics

variable {I : Interface} {C ε S P : Type} {ρ : C → Type}

/-- Which part of a state is shared: when two states agree on it, and how a state takes it
over from another one. -/
structure Sharing (S : Type) where
  same : S → S → Prop
  equivalence : Equivalence same
  share : S → S → S
  same_share : ∀ source target, same source (share source target)
  share_share : ∀ last source target, share last (share source target) = share last target
  share_same : ∀ source target, same source target → share source target = target

/-- The states of processes, and the threads of all of them. -/
structure Processes (program : (call : C) → Procedure I ε (ρ call)) (P S : Type) where
  states : P → S
  threads : List (P × Thread program)

variable {program : (call : C) → Procedure I ε (ρ call)} {handler : Handler I S}
  {schedule : Schedule program S} {sharing : Sharing S}

/-- The pool of all threads, as one process sees it. -/
def Processes.seenBy (processes : Processes program P S) (process : P) : Pool program S :=
  ⟨processes.states process, processes.threads.map Prod.snd⟩

@[simp] theorem Processes.seenBy_shared (processes : Processes program P S) (process : P) :
    (processes.seenBy process).shared = processes.states process := rfl

@[simp] theorem Processes.seenBy_threads (processes : Processes program P S) (process : P) :
    (processes.seenBy process).threads = processes.threads.map Prod.snd := rfl

theorem Processes.seenBy_getElem? {processes : Processes program P S} {process : P} {index : Nat}
    {thread : Thread program} :
    (processes.seenBy process).threads[index]? = some thread ↔
      ∃ actor, processes.threads[index]? = some (actor, thread) := by
  simp [List.getElem?_map]

namespace Sharing

/-- The calls of a schedule, with an environment that keeps the shared part. -/
def pooled (sharing : Sharing S) (schedule : Schedule program S) : Schedule program S where
  starts pool call := ∃ state, sharing.same pool.shared state ∧
    schedule.starts ⟨state, pool.threads⟩ call
  changes pool state := sharing.same pool.shared state

variable [DecidableEq P]

/-- One process has reached a state, and the others share in it. -/
def spread (sharing : Sharing S) (states : P → S) (actor : P) (state : S) (process : P) : S :=
  if process = actor then state else sharing.share state (states process)

variable {states : P → S} {actor process : P}

@[simp] theorem spread_self {state : S} : sharing.spread states actor state actor = state := by
  simp [spread]

theorem same_spread (state : S) : sharing.same state (sharing.spread states actor state process) := by
  unfold spread
  split
  · exact sharing.equivalence.refl state
  · exact sharing.same_share state _

@[simp] theorem spread_spread {first last : S} :
    sharing.spread (sharing.spread states actor first) actor last =
      sharing.spread states actor last := by
  funext process
  unfold spread
  split
  · rfl
  · exact sharing.share_share last first _

/-- States that agree are left alone. -/
theorem spread_agreeing (agree : ∀ process, sharing.same (states actor) (states process)) :
    sharing.spread states actor (states actor) = states := by
  funext process
  unfold spread
  split
  · next same => rw [same]
  · exact sharing.share_same _ _ (agree process)

end Sharing

namespace Processes

variable [DecidableEq P]

/-- The events so far, each with the position of its thread, and what they have led to. -/
inductive Run (handler : Handler I S) (schedule : Schedule program S) (sharing : Sharing S)
    (initial : P → S) : List (Nat × Event I) → Processes program P S → Prop where
  | initial : Run handler schedule sharing initial [] ⟨initial, []⟩
  | start {log : List (Nat × Event I)} {processes : Processes program P S} {call : C} (actor : P)
      (earlier : Run handler schedule sharing initial log processes)
      (allowed : schedule.starts (processes.seenBy actor) call) :
      Run handler schedule sharing initial log
        ⟨processes.states, processes.threads ++ [(actor, Thread.start program call)]⟩
  | perform {log : List (Nat × Event I)} {processes : Processes program P S} {index : Nat}
      {actor : P} {thread : Thread program} {op : I.Op}
      {next : I.Answer op → Procedure I ε (ρ thread.call)}
      (earlier : Run handler schedule sharing initial log processes)
      (found : processes.threads[index]? = some (actor, thread))
      (calls : thread.rest = .call op next) :
      Run handler schedule sharing initial
        (log ++ [(index, ⟨op, (handler op (processes.states actor)).1⟩)])
        ⟨sharing.spread processes.states actor (handler op (processes.states actor)).2,
          processes.threads.set index
            (actor, thread.advance calls (handler op (processes.states actor)).1)⟩
  | change {log : List (Nat × Event I)} {processes : Processes program P S} {state : S} (actor : P)
      (earlier : Run handler schedule sharing initial log processes)
      (allowed : schedule.changes (processes.seenBy actor) state) :
      Run handler schedule sharing initial log
        ⟨Function.update processes.states actor state, processes.threads⟩

variable {initial : P → S} {log : List (Nat × Event I)} {processes : Processes program P S}

namespace Run

section

variable (alike : ∀ first second, sharing.same (initial first) (initial second))
  (kept : ∀ pool state, schedule.changes pool state → sharing.same pool.shared state)
  (run : Run handler schedule sharing initial log processes)

include alike kept run

/-- The processes agree on the shared part. -/
theorem agree (first second : P) :
    sharing.same (processes.states first) (processes.states second) := by
  induction run generalizing first second with
  | initial => exact alike first second
  | start actor _ _ inductionHypothesis => exact inductionHypothesis first second
  | perform _ _ _ _ =>
      exact sharing.equivalence.trans (sharing.equivalence.symm (sharing.same_spread _))
        (sharing.same_spread _)
  | @change log processes state actor _ allowed inductionHypothesis =>
      have changed : ∀ process,
          sharing.same state (Function.update processes.states actor state process) := by
        intro process
        by_cases this : process = actor
        · rw [this, Function.update_self]
          exact sharing.equivalence.refl state
        · rw [Function.update_of_ne this]
          exact sharing.equivalence.trans (sharing.equivalence.symm (kept _ _ allowed))
            (inductionHypothesis actor process)
      exact sharing.equivalence.trans (sharing.equivalence.symm (changed first)) (changed second)

/-- A run of processes is a run of one pool, as each of them sees it. -/
theorem timeline (origin process : P) :
    Timeline handler (sharing.pooled schedule) (initial origin) log (processes.seenBy process) := by
  induction run generalizing process with
  | initial => exact .change .initial (alike origin process)
  | start actor earlier allowed inductionHypothesis =>
      have together := earlier.agree alike kept process actor
      have started := (inductionHypothesis process).start ⟨_, together, allowed⟩
      simpa [seenBy] using started
  | @perform log processes index actor thread op next _ found calls inductionHypothesis =>
      -- The process that acts has come to its own state by then.
      have place : (processes.seenBy actor).threads[index]? = some thread :=
        seenBy_getElem?.mpr ⟨actor, found⟩
      have performed := (inductionHypothesis actor).perform place calls
      have seen : Timeline handler (sharing.pooled schedule) (initial origin) _
          ⟨sharing.spread processes.states actor (handler op (processes.states actor)).2 process, _⟩ :=
        performed.change (sharing.same_spread _)
      simpa [seenBy, List.map_set] using seen
  | @change log processes state actor earlier allowed inductionHypothesis =>
      refine .change (inductionHypothesis process) ?_
      change sharing.same (processes.states process)
        (Function.update processes.states actor state process)
      by_cases this : process = actor
      · subst this
        rw [Function.update_self]
        exact kept _ _ allowed
      · rw [Function.update_of_ne this]
        exact sharing.equivalence.refl _

/-- One thread goes along a path that the state of its process answers. -/
theorem follow {index : Nat} {actor : P} {thread : Thread program}
    (found : processes.threads[index]? = some (actor, thread)) {past : List (Event I)}
    {rest : Procedure I ε (ρ thread.call)} (path : thread.rest.Path past rest) {final : S}
    (answered : Procedure.Answered handler (processes.states actor) past final) :
    Run handler schedule sharing initial (log ++ past.map fun event => (index, event))
      ⟨sharing.spread processes.states actor final, processes.threads.set index
        (actor, ⟨thread.call, thread.past ++ past, rest, thread.reached.trans path⟩)⟩ := by
  have together := run.agree alike kept actor
  obtain ⟨states, threads⟩ := processes
  obtain ⟨call, before, current, reached⟩ := thread
  change current.Path past rest at path
  induction past generalizing log states threads before current with
  | nil =>
      obtain rfl : final = states actor := answered
      cases path with
      | here =>
          obtain ⟨position, present⟩ := List.getElem?_eq_some_iff.mp found
          have same : threads.set index (actor, ⟨call, before ++ [], current, reached.trans .here⟩) =
              threads := by
            simp only [List.append_nil]
            rw [← present, List.set_getElem_self]
          rw [same, List.map_nil, List.append_nil, sharing.spread_agreeing together]
          exact run
  | cons event past inductionHypothesis =>
      cases path with
      | @next op following answer _ _ further =>
          obtain ⟨head, tail⟩ := answered
          obtain rfl : answer = (handler op (states actor)).1 := head
          have position : index < threads.length := (List.getElem?_eq_some_iff.mp found).1
          -- Perform the first operation, then follow the rest of the path.
          have performed := run.perform found rfl
          have continued := inductionHypothesis _ _ performed (by simpa using tail)
            (performed.agree alike kept actor) _ _ (reached.snoc _)
            (List.getElem?_set_self position) further
          simpa using continued

/-- A call goes along a path that the state of its process answers, from its start. -/
theorem called (actor : P) (call : C) (allowed : schedule.starts (processes.seenBy actor) call)
    {past : List (Event I)} {rest : Procedure I ε (ρ call)} (path : (program call).Path past rest)
    {final : S} (answered : Procedure.Answered handler (processes.states actor) past final) :
    Run handler schedule sharing initial
      (log ++ past.map fun event => (processes.threads.length, event))
      ⟨sharing.spread processes.states actor final,
        processes.threads ++ [(actor, ⟨call, past, rest, path⟩)]⟩ := by
  have ended := (run.start actor allowed).follow alike kept (List.getElem?_concat_length ..) path
    answered
  rw [List.set_append_right _ _ (Nat.le_refl _), Nat.sub_self, List.set_cons_zero] at ended
  exact ended

end

/-- What the state of a process shows apart from the shared part has an origin: some thread
of the process performed the event that brought it about. -/
theorem provenance (shows : S → Prop) (origin : Event I → Prop)
    (brought : ∀ (op : I.Op) (state : S), shows (handler op state).2 →
      shows state ∨ origin ⟨op, (handler op state).1⟩)
    (unshared : ∀ source target, shows (sharing.share source target) → shows target)
    (undisturbed : ∀ (pool : Pool program S) (state : S), schedule.changes pool state →
      shows state → shows pool.shared)
    (nothing : ∀ process, ¬ shows (initial process))
    (run : Run handler schedule sharing initial log processes) {process : P}
    (shown : shows (processes.states process)) :
    ∃ (index : Nat) (thread : Thread program),
      processes.threads[index]? = some (process, thread) ∧ ∃ event ∈ thread.past, origin event := by
  induction run with
  | initial => exact absurd shown (nothing process)
  | start actor _ _ inductionHypothesis =>
      obtain ⟨index, thread, found, caused⟩ := inductionHypothesis shown
      have place := (List.getElem?_eq_some_iff.mp found).1
      exact ⟨index, thread, by rw [List.getElem?_append_left place, found], caused⟩
  | @perform log processes index actor thread op next _ found calls inductionHypothesis =>
      have position := (List.getElem?_eq_some_iff.mp found).1
      -- What a thread has performed before the step it has performed after it.
      have later : (∃ (index : Nat) (thread : Thread program),
          processes.threads[index]? = some (process, thread) ∧ ∃ event ∈ thread.past, origin event) →
          ∃ (index' : Nat) (thread' : Thread program), (processes.threads.set index (actor, thread.advance calls
            (handler op (processes.states actor)).1))[index']? = some (process, thread') ∧
              ∃ event ∈ thread'.past, origin event := by
        rintro ⟨place, other, atPlace, event, performed, caused⟩
        by_cases same : place = index
        · subst same
          obtain ⟨rfl, rfl⟩ := Prod.mk.inj (Option.some.inj (found.symm.trans atPlace))
          exact ⟨place, _, List.getElem?_set_self position, event,
            List.mem_append_left _ performed, caused⟩
        · exact ⟨place, other, by rw [List.getElem?_set_ne (Ne.symm same), atPlace], event,
            performed, caused⟩
      by_cases acting : process = actor
      · subst acting
        simp only [Sharing.spread_self] at shown
        rcases brought op _ shown with earlier | now
        · exact later (inductionHypothesis earlier)
        · exact ⟨index, _, List.getElem?_set_self position, _,
            List.mem_append_right _ (List.mem_singleton.mpr rfl), now⟩
      · simp only [Sharing.spread, acting, if_false] at shown
        exact later (inductionHypothesis (unshared _ _ shown))
  | @change log processes state actor _ allowed inductionHypothesis =>
      by_cases this : process = actor
      · subst this
        simp only [Function.update_self] at shown
        exact inductionHypothesis (undisturbed _ _ allowed shown)
      · simp only [Function.update_of_ne this] at shown
        exact inductionHypothesis shown

end Run
end Processes
end NetworkFinality.Semantics
