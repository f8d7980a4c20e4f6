import NetworkFinality.Safety.Provenance

/-!
# Effects at most once

A thread that has consumed an authority holds its identifier until it undoes the
consumption, and only then does the flag go back. A nonce is held by the call that
reserved it. No two threads hold the same key, so under any interleaving no two
calls apply effects for one authority or for one nonce.
-/

namespace NetworkFinality

open Python Semantics Procedure

/-- One application of an effect: by which call, for which request, on which network
and under which identifier. -/
structure Application where
  index : Nat
  request : SinkRequest
  network : Nat
  effectId : Str
  effect : NetworkEffect

/-- The application has been performed in the pool. -/
def Application.Occurs [Hashlib] (application : Application) (pool : Pool Call.program World) :
    Prop :=
  ∃ thread sink draw, pool.threads[application.index]? = some thread ∧
    thread.call = .verifyAndEffectuate sink application.request draw ∧
    ⟨.apply application.network application.effect draw, .ok application.effectId⟩ ∈ thread.past

/-- What it means for a pool that each authority and each nonce has at most one
effect, and that authorities with effects are used. -/
structure AtMostOnce [Hashlib] (pool : Pool Call.program World) : Prop where
  recorded : ∀ network effectId effect, pool.shared.effect network effectId = some effect →
    ∃ index request, Application.Occurs ⟨index, request, network, effectId, effect⟩ pool
  authority : ∀ first second : Application, first.Occurs pool → second.Occurs pool →
    first.effect.authorityId = second.effect.authorityId → first = second
  nonce : ∀ first second : Application, first.Occurs pool → second.Occurs pool →
    first.request.candidate.freshness.nonce.1 = second.request.candidate.freshness.nonce.1 →
    first = second
  candidate : ∀ first second : Application, first.Occurs pool → second.Occurs pool →
    ∀ digest, candidateDigest first.request.candidate = .ok digest →
    candidateDigest second.request.candidate = .ok digest → first = second
  used : ∀ application : Application, application.Occurs pool →
    pool.shared.activations.Used application.effect.authorityId

variable [Hashlib] {schedule : Schedule Call.program World} {world : World}
  {pool : Pool Call.program World}

/-- The thread has consumed the authority and has not undone it. -/
def Holds (thread : Thread Call.program) (authorityId : Str) : Prop :=
  ⟨.consume authorityId, .ok true⟩ ∈ thread.past ∧
    ⟨.unconsume authorityId, .ok ()⟩ ∉ thread.past

/-- The event has reserved the nonce. -/
def Reserves (event : Event system) (nonce : Str) : Prop := event = ⟨.reserve nonce, true⟩

namespace Application.Occurs

variable {application : Application}

/-- The thread that has performed an application, and all it has written. -/
theorem thread (occurs : application.Occurs pool) :
    ∃ thread sink draw authority, pool.threads[application.index]? = some thread ∧
      thread.call = .verifyAndEffectuate sink application.request draw ∧
      application.effect.authorityId = authority.authorityId ∧
      Cleared sink application.request authority thread.past ∧
      writes thread.past = [⟨.consume authority.authorityId, .ok true⟩,
        ⟨.apply application.network application.effect draw, .ok application.effectId⟩] := by
  obtain ⟨thread, sink, draw, found, call, applied⟩ := occurs
  obtain ⟨sink', request, authority, call', -, effect, cleared, written, -⟩ :=
    applied_of_thread applied
  obtain ⟨rfl, rfl, -⟩ := Call.verifyAndEffectuate.inj (call.symm.trans call')
  exact ⟨thread, sink, draw, authority, found, call, by rw [effect]; rfl, cleared, written⟩

/-- The candidate of an application is among those of the pool. -/
private theorem candidate (occurs : application.Occurs pool) :
    application.request.candidate ∈ candidates pool := by
  obtain ⟨thread, sink, draw, found, call, -⟩ := occurs
  exact ⟨thread, List.mem_of_getElem? found, by rw [call]; rfl⟩

/-- A thread that has applied an effect holds the authority. -/
private theorem holds (occurs : application.Occurs pool) :
    ∃ thread, pool.threads[application.index]? = some thread ∧
      Holds thread application.effect.authorityId := by
  obtain ⟨thread, sink, draw, authority, found, -, named, -, written⟩ := occurs.thread
  refine ⟨thread, found, ?_, fun undone => ?_⟩
  · have consumed : ⟨.consume authority.authorityId, .ok true⟩ ∈ writes thread.past := by
      simp [written]
    rw [named]
    exact (mem_writes.mp consumed).1
  · have undone := mem_writes.mpr ⟨undone, rfl⟩
    simp [written] at undone

/-- A call performs at most one application. -/
private theorem unique {first second : Application}
    (occurs : first.Occurs pool) (occurs' : second.Occurs pool)
    (same : first.index = second.index) : first = second := by
  obtain ⟨thread, sink, draw, authority, found, call, -, -, written⟩ := occurs.thread
  obtain ⟨thread', sink', draw', authority', found', call', -, -, written'⟩ := occurs'.thread
  rw [same, found'] at found
  obtain rfl := Option.some.inj found
  obtain ⟨rfl, request, rfl⟩ := Call.verifyAndEffectuate.inj (call.symm.trans call')
  rw [written] at written'
  obtain ⟨-, applied⟩ := List.cons.inj written'
  obtain ⟨performed, answered⟩ := Event.mk.inj (List.singleton_inj.mp applied)
  obtain ⟨network, effect, -⟩ := Op.apply.inj performed
  cases first
  cases second
  simp_all

/-- An application stays performed. -/
private theorem keeps {later : Pool Call.program World}
    (occurs : application.Occurs pool) (further : Pool.Steps World.exec schedule pool later) :
    application.Occurs later := by
  obtain ⟨thread, sink, draw, found, call, applied⟩ := occurs
  obtain ⟨thread', found', call', longer⟩ := further.keeps found
  exact ⟨thread', sink, draw, found', call'.trans call, longer.subset applied⟩

end Application.Occurs

/-- At most one thread holds an authority, and the flag shows it. -/
theorem authorities_held (kept : ActivationsKept schedule)
    (steps : Pool.Steps World.exec schedule (Pool.initial Call.program world) pool) :
    Pool.Held Holds (fun authorityId (state : World) => state.activations.Used authorityId)
      pool := by
  apply Pool.held _ _ ?_ ?_ ?_ ?_ steps
  · rintro call authorityId ⟨consumed, -⟩
    simp at consumed
  · rintro thread op next calls state authorityId ⟨consumed, kept⟩
    rw [Thread.advance_past, List.mem_append, List.mem_singleton] at consumed kept
    rcases consumed with earlier | now
    · refine .inl ⟨⟨earlier, fun undone => kept (.inl undone)⟩, fun used => ?_⟩
      rcases (World.exec_activations op state).keeps_used used with still | undoes
      · exact still
      · exact absurd (.inr undoes.symm) kept
    · obtain ⟨rfl, answered⟩ := Event.mk.inj now
      exact .inr (World.exec_consume state (eq_of_heq answered).symm)
  · intro thread op next calls state authorityId used
    rcases (World.exec_activations op state).keeps_used used with still | undoes
    · exact .inl still
    · obtain ⟨rfl, -⟩ := Event.mk.inj undoes
      exact .inr (consumed_of_unconsume calls)
  · intro before after allowed authorityId used
    rwa [kept _ _ allowed]

section

variable (kept : ActivationsKept schedule)
  (steps : Pool.Steps World.exec schedule (Pool.initial Call.program world) pool)

include kept steps

/-- Applications under one authority are one application, whatever else the environment does. -/
theorem Application.Occurs.same {first second : Application} (occurs : first.Occurs pool)
    (occurs' : second.Occurs pool) (same : first.effect.authorityId = second.effect.authorityId) :
    first = second := by
  obtain ⟨thread, found, holds⟩ := occurs.holds
  obtain ⟨thread', found', holds'⟩ := occurs'.holds
  rw [← same] at holds'
  exact occurs.unique occurs' ((authorities_held kept steps).exclusive found found' holds holds')

/-- The authority of an application is used, whatever else the environment does. -/
theorem Application.Occurs.used {application : Application} (occurs : application.Occurs pool) :
    pool.shared.activations.Used application.effect.authorityId := by
  obtain ⟨thread, found, holds⟩ := occurs.holds
  exact (authorities_held kept steps).taken thread (List.mem_of_getElem? found) _ holds

end

section

variable (environment : EnvironmentOnly schedule)
  (steps : Pool.Steps World.exec schedule (Pool.initial Call.program world) pool)

include environment steps

/-- At most one thread has reserved a nonce. -/
theorem nonces_held :
    Pool.Held (fun thread nonce => ∃ event ∈ thread.past, Reserves event nonce)
      (fun nonce (state : World) => nonce ∈ state.nonceRegistry) pool := by
  apply Pool.exclusive Reserves _ ?_ ?_ ?_ steps
  · intro op state nonce claimed
    obtain ⟨rfl, answered⟩ := Event.mk.inj claimed
    exact World.exec_reserve state (eq_of_heq answered)
  · intro nonce op state seen
    exact World.exec_nonceRegistry op state seen
  · intro before after allowed nonce seen
    rwa [(environment _ _ allowed).nonceRegistry]

/-- Applications under one authority are one application. -/
theorem applied_once {first second : Application} (occurs : first.Occurs pool)
    (occurs' : second.Occurs pool) (same : first.effect.authorityId = second.effect.authorityId) :
    first = second :=
  occurs.same environment.activationsKept steps occurs' same

/-- The authority of an application is used. -/
theorem applied_used {application : Application} (occurs : application.Occurs pool) :
    pool.shared.activations.Used application.effect.authorityId :=
  occurs.used environment.activationsKept steps

/-- The call that issued the authority of an application. -/
private theorem applied_issuer (fresh : world.Fresh) {application : Application}
    (occurs : application.Occurs pool) :
    ∃ (index : Nat) (issuer : Thread Call.program) (draws : IssueDraws)
      (candidate : NetworkCandidateAct) (ped : ProtectedEnforcementDomain),
      pool.threads[index]? = some issuer ∧
      issuer.call = .validateAndIssue ped draws candidate ∧
      application.effect.authorityId = draws.authorityId ∧
      ∃ event ∈ issuer.past, Reserves event application.request.candidate.freshness.nonce := by
  obtain ⟨thread, sink, draw, authority, found, -, named, cleared, -⟩ := occurs.thread
  obtain ⟨issuer, member, activation, put, vouched⟩ :=
    cleared_vouched environment.activationsKept fresh steps (List.mem_of_getElem? found) cleared
  obtain ⟨ped, draws, candidate, now, decision, evidence, issued, call, facts, -⟩ :=
    issued_of_thread put
  obtain ⟨index, place⟩ := List.mem_iff_getElem?.mp member
  have prepared := facts.prepared
  refine ⟨index, issuer, draws, candidate, ped, place, call, ?_, _, facts.reserved, ?_⟩
  · rw [named, ← vouched.authorityId, prepared.activationId, prepared.authorityId]
  · rw [Reserves, ← vouched.nonce, prepared.activationNonce]

/-- Applications for one nonce are one application. -/
theorem applied_once_nonce (fresh : world.Fresh) {first second : Application}
    (occurs : first.Occurs pool) (occurs' : second.Occurs pool)
    (same : first.request.candidate.freshness.nonce.1 =
      second.request.candidate.freshness.nonce.1) : first = second := by
  obtain ⟨index, issuer, draws, candidate, ped, found, call, named, reserves⟩ :=
    applied_issuer environment steps fresh occurs
  obtain ⟨index', issuer', draws', candidate', ped', found', call', named', reserves'⟩ :=
    applied_issuer environment steps fresh occurs'
  rw [← same] at reserves'
  obtain rfl := (nonces_held environment steps).exclusive found found' reserves reserves'
  obtain rfl := Option.some.inj (found.symm.trans found')
  obtain ⟨-, rfl, -⟩ := Call.validateAndIssue.inj (call.symm.trans call')
  exact applied_once environment steps occurs occurs' (named.trans named'.symm)

end

/-- Under every interleaving of any number of calls, each authority and each nonce
has at most one effect, and an authority with an effect stays used for good. -/
theorem effects_at_most_once (environment : EnvironmentOnly schedule) (fresh : world.Fresh)
    (steps : Pool.Steps World.exec schedule (Pool.initial Call.program world) pool)
    (collisionFree : CollisionFree candidateDigest (candidates pool)) :
    AtMostOnce pool ∧ ∀ application : Application, application.Occurs pool →
      ∀ later, Pool.Steps World.exec schedule pool later →
        later.shared.activations.Used application.effect.authorityId := by
  refine ⟨⟨?_, ?_, ?_, ?_, ?_⟩, ?_⟩
  · intro network effectId effect recorded
    obtain ⟨thread, member, draw, applied⟩ := effect_applied environment steps fresh.effects recorded
    obtain ⟨sink, request, authority, call, -⟩ := applied_of_thread applied
    obtain ⟨index, found⟩ := List.mem_iff_getElem?.mp member
    exact ⟨index, request, thread, sink, draw, found, call, applied⟩
  · exact fun first second => applied_once environment steps
  · exact fun first second => applied_once_nonce environment steps fresh
  · intro first second occurs occurs' digest computed computed'
    apply applied_once_nonce environment steps fresh occurs occurs'
    have equal := collisionFree _ occurs.candidate _ occurs'.candidate digest computed computed'
    rw [equal]
  · exact fun application => applied_used environment steps
  · intro application occurs later further
    exact applied_used environment (steps.trans further) (occurs.keeps further)

omit [Hashlib] in
/-- In the reference run the recorded effect is the only one under its authority. -/
theorem effects_at_most_once_reference :
    @AtMostOnce .checksum Reference.pool ∧
      ((Reference.finalWorld.networks 0).effects.get "net-effect-0000000001").isSome = true := by
  constructor
  · have sole : @CollisionFree _ (@candidateDigest .checksum)
        (@candidates .checksum Reference.pool) := by
      intro first occurs second occurs' _ _ _
      rw [candidates_reference occurs, candidates_reference occurs']
    have steps : Pool.Steps (@World.exec .checksum) (@unrestricted .checksum)
        (Pool.initial _ Reference.start.world) Reference.pool :=
      Reference.history.pool (fun _ _ _ _ => trivial) fun _ _ => id
    exact (@effects_at_most_once .checksum _ _ _ (@unrestricted_environment .checksum)
      (buildReferenceSystem_fresh _ _) steps sole).1
  · have recorded := Reference.effectuated_allow.2.1
    rw [Option.map_eq_some_iff] at recorded
    obtain ⟨effect, present, -⟩ := recorded
    rw [present]
    rfl

end NetworkFinality
