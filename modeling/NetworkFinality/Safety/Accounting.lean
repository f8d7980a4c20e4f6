import NetworkFinality.Safety.AtMostOnce

/-!
# No authority is lost

A used authority is accounted for: an effect was applied under it, or a call that has
consumed it is still on its way to the effect or to undoing the consumption. Once every
call has ended, the used authorities are exactly those with an effect.
-/

namespace NetworkFinality

open Python Semantics Procedure

variable [Hashlib] {schedule : Schedule Call.program World} {world : World}
  {pool : Pool Call.program World}

/-- The thread has consumed the authority, and neither its effect nor the undoing of the
consumption has happened yet. -/
structure Pending (thread : Thread Call.program) (authorityId : Str) : Prop where
  holds : Holds thread authorityId
  unapplied : ∀ network effect draw effectId,
    ⟨.apply network effect draw, .ok effectId⟩ ∉ thread.past

/-- Some call has applied an effect under the authority. -/
def Applied (pool : Pool Call.program World) (authorityId : Str) : Prop :=
  ∃ application : Application, application.Occurs pool ∧
    application.effect.authorityId = authorityId

/-- An effect that has been applied stays applied. -/
theorem Applied.keeps {later : Pool Call.program World} {authorityId : Str}
    (applied : Applied pool authorityId) (further : Pool.Steps World.exec schedule pool later) :
    Applied later authorityId := by
  obtain ⟨application, ⟨thread, sink, draw, found, call, performed⟩, named⟩ := applied
  obtain ⟨thread', found', call', longer⟩ := further.keeps found
  exact ⟨application, ⟨thread', sink, draw, found', call'.trans call, longer.subset performed⟩,
    named⟩

/-- A thread about to consume an authority has written nothing yet. -/
theorem unwritten_of_consume {thread : Thread Call.program} {authorityId : Str}
    {next : Except PyError Bool → Program thread.call.Result}
    (calls : thread.rest = .call (.consume authorityId) next) : writes thread.past = [] := by
  obtain ⟨call, past, rest, reached⟩ := thread
  cases call with
  | validateAndIssue ped draws candidate =>
      have remaining := ProtectedEnforcementDomain.validateAndIssue_uses.remains reached
      change rest = _ at calls
      rw [calls] at remaining
      cases (uses_call.mp remaining).1
  | verifyAndEffectuate sink request draw =>
      cases NetworkFinalitySink.verifyAndEffectuate_stage reached with
      | guarding written allowed => exact written
      | refused _ _ _ _ _ ended => cases calls.symm.trans ended
      | consumed _ _ _ _ next => cases calls.symm.trans next
      | applied _ _ _ _ ended => cases calls.symm.trans ended
      | failed _ _ _ _ next => cases calls.symm.trans next
      | undone _ _ _ _ _ ended => cases calls.symm.trans ended

/-- A thread that holds an authority is on its way, or has applied an effect under it. -/
theorem Holds.pending_or_applied {thread : Thread Call.program} {authorityId : Str} {index : Nat}
    (found : pool.threads[index]? = some thread) (holds : Holds thread authorityId) :
    Pending thread authorityId ∨ Applied pool authorityId := by
  by_cases unapplied : ∀ network effect draw effectId,
      ⟨.apply network effect draw, .ok effectId⟩ ∉ thread.past
  · exact .inl ⟨holds, unapplied⟩
  · simp only [not_forall, not_not] at unapplied
    obtain ⟨network, effect, draw, effectId, applied⟩ := unapplied
    obtain ⟨sink, request, authority, call, rfl, rfl, -, written, -⟩ := applied_of_thread applied
    have consumed := mem_writes.mpr ⟨holds.1, rfl⟩
    rw [written, List.mem_cons, List.mem_singleton] at consumed
    have same : authorityId = authority.authorityId := by
      rcases consumed with same | impossible
      · exact Op.consume.inj (Event.mk.inj same).1
      · cases impossible
    exact .inr ⟨⟨index, request, _, effectId, _⟩, ⟨thread, sink, draw, found, call, applied⟩,
      same.symm⟩

/-- A thread that holds an authority on its way writes next. -/
theorem Pending.writes_next {thread : Thread Call.program} {authorityId : Str}
    (pending : Pending thread authorityId) {op : Op}
    {next : op.Answer → Program thread.call.Result} (calls : thread.rest = .call op next) :
    op.isWrite = true := by
  obtain ⟨call, past, rest, reached⟩ := thread
  have written := mem_writes.mpr ⟨pending.holds.1, rfl⟩
  cases call with
  | validateAndIssue ped draws candidate =>
      have permitted :=
        ProtectedEnforcementDomain.validateAndIssue_uses.events reached _ pending.holds.1
      cases permitted
  | verifyAndEffectuate sink request draw =>
      cases NetworkFinalitySink.verifyAndEffectuate_stage reached with
      | guarding nothing =>
          rw [nothing] at written
          cases written
      | refused _ _ _ _ _ ended => cases calls.symm.trans ended
      | consumed _ _ _ _ next => cases calls.symm.trans next; rfl
      | applied _ _ _ _ ended => cases calls.symm.trans ended
      | failed _ _ _ _ next => cases calls.symm.trans next; rfl
      | undone _ _ _ _ _ ended => cases calls.symm.trans ended

/-- A thread that holds an authority is a call of a sink. -/
theorem Holds.sink {thread : Thread Call.program} {authorityId : Str}
    (holds : Holds thread authorityId) :
    ∃ sink request draw, thread.call = .verifyAndEffectuate sink request draw := by
  obtain ⟨call, past, rest, reached⟩ := thread
  cases call with
  | validateAndIssue ped draws candidate =>
      have permitted := ProtectedEnforcementDomain.validateAndIssue_uses.events reached _ holds.1
      cases permitted
  | verifyAndEffectuate sink request draw => exact ⟨sink, request, draw, rfl⟩

section

variable (environment : EnvironmentOnly schedule) (fresh : world.Fresh)
  (steps : Pool.Steps World.exec schedule (Pool.initial Call.program world) pool)

include environment fresh steps

/-- A used authority is held by a thread. -/
theorem held_of_used {authorityId : Str} (used : pool.shared.activations.Used authorityId) :
    ∃ thread ∈ pool.threads, Holds thread authorityId := by
  have covered : world.activations.Used authorityId ∨
      ∃ thread ∈ pool.threads, Holds thread authorityId := by
    refine Pool.holder Holds
      (fun authorityId (state : World) => state.activations.Used authorityId) ?_ ?_ steps used
    · intro thread op next calls state authorityId after
      rcases (World.exec_activations op state).used_origin after with before | consumes
      · by_cases holds : Holds thread authorityId
        · refine .inl ⟨List.mem_append_left _ holds.1, fun undone => ?_⟩
          rw [Thread.advance_past, List.mem_append, List.mem_singleton] at undone
          rcases undone with earlier | now
          · exact holds.2 earlier
          · obtain ⟨rfl, answered⟩ := Event.mk.inj now
            exact World.exec_unconsumed state (eq_of_heq answered).symm after
        · exact .inr ⟨before, holds⟩
      · -- The thread has just consumed it, and had written nothing before.
        obtain ⟨rfl, answered⟩ := Event.mk.inj consumes
        refine .inl ⟨?_, fun undone => ?_⟩
        · rw [Thread.advance_past, eq_of_heq answered]
          exact List.mem_append_right _ (List.mem_singleton.mpr rfl)
        · rw [Thread.advance_past, List.mem_append, List.mem_singleton] at undone
          rcases undone with earlier | now
          · have written := mem_writes.mpr ⟨earlier, rfl⟩
            rw [unwritten_of_consume calls] at written
            cases written
          · cases (Event.mk.inj now).1
    · intro before after allowed authorityId used
      rwa [(environment _ _ allowed).activations] at used
  rcases covered with ⟨record, present, -⟩ | held
  · rw [fresh.activations] at present
    cases present
  · exact held

/-- A used authority is accounted for, and nothing else is used. -/
theorem used_iff (authorityId : Str) :
    pool.shared.activations.Used authorityId ↔
      Applied pool authorityId ∨ ∃ thread ∈ pool.threads, Pending thread authorityId := by
  constructor
  · intro used
    obtain ⟨thread, member, holds⟩ := held_of_used environment fresh steps used
    obtain ⟨index, found⟩ := List.mem_iff_getElem?.mp member
    rcases holds.pending_or_applied found with pending | applied
    · exact .inr ⟨thread, member, pending⟩
    · exact .inl applied
  · rintro (⟨application, occurs, rfl⟩ | ⟨thread, member, pending⟩)
    · exact applied_used environment steps occurs
    · exact (authorities_held environment.activationsKept steps).taken thread member _ pending.holds

end

/-- Undoing a consumption does not fail. -/
theorem undone_ok (kept : ActivationsKept schedule)
    (steps : Pool.Steps World.exec schedule (Pool.initial Call.program world) pool) :
    ∀ thread ∈ pool.threads, ∀ authorityId error,
      ⟨.unconsume authorityId, .error error⟩ ∉ thread.past := by
  induction steps with
  | refl => simp [Pool.initial]
  | @tail middle final before step inductionHypothesis =>
      cases step with
      | start allowed =>
          intro thread member authorityId error
          rcases List.mem_append.mp member with old | new
          · exact inductionHypothesis thread old authorityId error
          · rw [List.mem_singleton.mp new]
            simp
      | @perform index actor op next found calls =>
          intro thread member authorityId error performed
          obtain ⟨place, atPlace⟩ := List.mem_iff_getElem?.mp member
          rcases Pool.getElem?_perform atPlace with ⟨-, rfl⟩ | ⟨-, other⟩
          · rw [Thread.advance_past, List.mem_append, List.mem_singleton] at performed
            have actorMember := List.mem_of_getElem? found
            rcases performed with earlier | now
            · exact inductionHypothesis actor actorMember authorityId error earlier
            · obtain ⟨rfl, answered⟩ := Event.mk.inj now
              have used := (authorities_held kept before).taken actor actorMember authorityId
                (consumed_of_unconsume calls)
              have answered := (eq_of_heq answered).trans (World.exec_unconsume_used _ used)
              cases answered
          · exact inductionHypothesis thread (List.mem_of_getElem? other) authorityId error performed
      | change allowed => exact inductionHypothesis

/-- A call that has ended leaves nothing pending. -/
theorem not_pending_of_finished (kept : ActivationsKept schedule)
    (steps : Pool.Steps World.exec schedule (Pool.initial Call.program world) pool)
    {thread : Thread Call.program} (member : thread ∈ pool.threads)
    (finished : ∀ op next, thread.rest ≠ .call op next) (authorityId : Str) :
    ¬ Pending thread authorityId := by
  rintro ⟨⟨consumed, kept'⟩, unapplied⟩
  have undone := undone_ok kept steps thread member
  obtain ⟨call, past, rest, reached⟩ := thread
  have written := mem_writes.mpr ⟨consumed, rfl⟩
  cases call with
  | validateAndIssue ped draws candidate =>
      have permitted := ProtectedEnforcementDomain.validateAndIssue_uses.events reached _ consumed
      cases permitted
  | verifyAndEffectuate sink request draw =>
      cases NetworkFinalitySink.verifyAndEffectuate_stage reached with
      | guarding nothing =>
          rw [nothing] at written
          cases written
      | refused authority answer one failed reason ended =>
          rw [one, List.mem_singleton] at written
          exact failed (eq_of_heq (Event.mk.inj written).2.symm)
      | consumed authority cleared one further next => exact finished _ _ next
      | applied authority effectId cleared both ended =>
          have applied : _ ∈ writes past := both ▸ List.mem_cons_of_mem _ (List.mem_singleton.mpr rfl)
          exact unapplied _ _ _ _ (mem_writes.mp applied).1
      | failed authority error both further next => exact finished _ _ next
      | undone authority error answer three reason ended =>
          obtain rfl : authorityId = authority.authorityId := by
            simpa [three] using written
          have last : (⟨.unconsume authority.authorityId, answer⟩ : Event system) ∈ writes past := by
            simp [three]
          cases answer with
          | ok result => exact kept' (mem_writes.mp last).1
          | error error' => exact undone _ error' (mem_writes.mp last).1

end NetworkFinality
