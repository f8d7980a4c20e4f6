import NetworkFinality.Safety.Provenance
import NetworkFinality.Spec.Permit

/-!
# One call of a sink is atomic

A call that runs without interference either returns ALLOW, having consumed one
authority and added one effect, or it ends in a denial or an exception and leaves
the world exactly as it was. The rollback is covered: an effect that fails after the
consumption undoes it, in either store.
-/

namespace NetworkFinality

open Python Semantics Procedure

/-- The response of an effect that was permitted, under its identifier. -/
structure SinkVerifyResponse.Allows (response : SinkVerifyResponse) (request : SinkRequest)
    (authority : NetworkFinalityAuthority) (effectId : Str) : Prop where
  requestId : response.requestId = request.requestId
  decision : response.decision = .allow
  code : response.code = "OK"
  authorityId : response.authorityId = some authority.authorityId
  consumed : response.consumed = true
  effectuationPermitted : response.effectuationPermitted = true
  networkEffectId : response.networkEffectId = some effectId

/-- The response of a request that was refused. -/
structure SinkVerifyResponse.Denies (response : SinkVerifyResponse) : Prop where
  decision : response.decision = .deny
  consumed : response.consumed = false
  effectuationPermitted : response.effectuationPermitted = false
  networkEffectId : response.networkEffectId = none

/-- The two worlds differ in one consumption and one new effect. -/
structure Effectuated (sink : NetworkFinalitySink) (request : SinkRequest)
    (authority : NetworkFinalityAuthority) (effectId : Str) (before after : World) : Prop where
  presented : request.authority = some authority
  unused : ∃ record, before.activations authority.authorityId = some record ∧ record.used = false
  activations : after.activations = before.activations.setUsed authority.authorityId true
  absent : before.effect sink.network effectId = none
  added : (after.networks sink.network).effects = (before.networks sink.network).effects.set effectId
    (NetworkFinalitySink.effectOf request authority)
  networks : ∀ network, network ≠ sink.network → after.networks network = before.networks network
  evidenceStore : after.evidenceStore = before.evidenceStore
  state : after.state = before.state
  nonceRegistry : after.nonceRegistry = before.nonceRegistry
  clock : after.clock = before.clock

/-- The ways a call may end: all of it has happened, or nothing. -/
inductive Settled (sink : NetworkFinalitySink) (request : SinkRequest) (before : World) :
    Except Exit SinkVerifyResponse × World → Prop where
  | effectuated {authority : NetworkFinalityAuthority} {effectId : Str}
      {response : SinkVerifyResponse} {after : World}
      (allows : response.Allows request authority effectId)
      (changed : Effectuated sink request authority effectId before after) :
      Settled sink request before (.ok response, after)
  | denied {response : SinkVerifyResponse} (denies : response.Denies) :
      Settled sink request before (.error (.denied response), before)
  | raised (error : PyError) : Settled sink request before (.error (.raised error), before)

/-- A reason to end early that permits no effect. -/
def Exit.Refuses : Exit → Prop
  | .denied response => response.Denies
  | .raised _ => True

theorem RefusedWith.refuses {request : SinkRequest} {messages : List String} {exit : Exit}
    (refused : RefusedWith request messages exit) : exit.Refuses := by
  cases refused with
  | denied reason listed checks authorityId => exact ⟨rfl, rfl, rfl, rfl⟩
  | raised error => trivial

namespace NetworkFinalitySink

variable [Hashlib] {sink : NetworkFinalitySink} {request : SinkRequest} {draw : Option Str}

/-- A call that does not return ALLOW denies or raises. -/
theorem verifyAndEffectuate_leaves :
    (sink.verifyAndEffectuate request draw).Leaves Exit.Refuses := by
  refine Leaves.bind (verify_leaves.mono fun _ refused => refused.refuses) fun _ => ?_
  exact effectuate_leaves.mono fun _ refused => refused.refuses

end NetworkFinalitySink

section

variable [Hashlib] {sink : NetworkFinalitySink} {request : SinkRequest} {draw : Option Str}
  {world after : World}

/-- What a run that returns has changed. -/
private theorem effectuated_of_ok {response : SinkVerifyResponse}
    (fresh : ∀ hex, draw = some hex →
      world.effect sink.network (("net-effect-" : Str) ++ hex) = none)
    (ran : (sink.verifyAndEffectuate request draw).run World.exec world = (.ok response, after)) :
    Settled sink request world (.ok response, after) := by
  obtain ⟨authority, evidence, activation, hex, permitted, rfl, rfl, rfl⟩ :=
    NetworkFinalitySink.verifyAndEffectuate_ok.mp ran
  obtain ⟨record, present, unused⟩ :=
    World.unused_of_reads permitted.activationStored permitted.unused
  obtain ⟨store, consumed, free, table, -⟩ :=
    World.exec_consumed world (World.exec_consume_unused world present unused)
  have applied : sink.applied request authority hex world = { world with
      activationStore := store
      networks := Function.update world.networks sink.network
        ⟨(world.networks sink.network).effects.set (("net-effect-" : Str) ++ hex)
          (NetworkFinalitySink.effectOf request authority)⟩ } := by
    rw [NetworkFinalitySink.applied, consumed]
    rfl
  rw [applied]
  refine .effectuated ⟨rfl, rfl, rfl, rfl, rfl, rfl, rfl⟩ ⟨permitted.presented, free, table,
    fresh hex rfl, ?_, ?_, rfl, rfl, rfl, rfl⟩
  · simp only [Function.update_self]
  · intro network other
    exact Function.update_of_ne other ..

/-- A run that ends early has changed nothing. -/
private theorem unchanged_of_error {reason : Exit}
    (ran : (sink.verifyAndEffectuate request draw).run World.exec world = (.error reason, after)) :
    after = world := by
  have path := trace_path World.exec (sink.verifyAndEffectuate request draw) world
  have answered := answered_writes
    (trace_answered World.exec (sink.verifyAndEffectuate request draw) world)
  rw [ran] at path answered
  cases NetworkFinalitySink.verifyAndEffectuate_stage path with
  | guarding written next unreturned =>
      rw [written] at answered
      exact answered
  | refused authority answer written failed _ _ =>
      rw [written] at answered
      obtain ⟨head, rfl⟩ := answered
      exact World.exec_consume_failed world (head ▸ failed)
  | consumed authority cleared written further next => cases next
  | applied authority effectId cleared written ended => cases ended
  | failed authority error written further next => cases next
  | undone authority error answer written _ _ =>
      rw [written] at answered
      obtain ⟨consumed, applied, -, rfl⟩ := answered
      rw [World.exec_apply_failed _ applied.symm, World.exec_undone world consumed.symm]

/-- A call that runs without interference happens as a whole or not at all. -/
theorem verifyAndEffectuate_atomic (sink : NetworkFinalitySink) (request : SinkRequest)
    (draw : Option Str) (world : World)
    (fresh : ∀ hex, draw = some hex →
      world.effect sink.network (("net-effect-" : Str) ++ hex) = none) :
    Settled sink request world ((sink.verifyAndEffectuate request draw).run World.exec world) := by
  rcases ran : (sink.verifyAndEffectuate request draw).run World.exec world with ⟨outcome, after⟩
  cases outcome with
  | ok response => exact effectuated_of_ok fresh ran
  | error reason =>
      have path := trace_path World.exec (sink.verifyAndEffectuate request draw) world
      rw [ran] at path
      have refuses := NetworkFinalitySink.verifyAndEffectuate_leaves.reason path
      obtain rfl := unchanged_of_error ran
      cases reason with
      | denied response => exact .denied refuses
      | raised error => exact .raised error

end

/-- A run of `validateAndIssue` changes no network. -/
theorem validateAndIssue_networks [Hashlib] (ped : ProtectedEnforcementDomain) (draws : IssueDraws)
    (candidate : NetworkCandidateAct) (world : World) :
    ((ped.validateAndIssue draws candidate).run World.exec world).2.networks = world.networks := by
  refine run_keeps World.exec (fun state => state.networks = world.networks) ?_
    (ProtectedEnforcementDomain.validateAndIssue_uses) rfl
  intro op issues state before
  rw [World.exec_networks op state, before]
  rintro network effect draw rfl
  cases issues

/-- The reference request is effectuated as a whole, and allowed. -/
theorem verifyAndEffectuate_atomic_reference :
    Settled Reference.start.sink Reference.request Reference.issuedWorld Reference.effectuated ∧
      Reference.effectuated.1.toOption.map (·.decision) = some .allow := by
  refine ⟨?_, Reference.effectuated_allow.1⟩
  have fresh : Reference.start.world.Fresh := buildReferenceSystem_fresh _ _
  have networks : Reference.issuedWorld.networks = Reference.start.world.networks := by
    rw [Reference.issuedWorld, Reference.issued]
    exact @validateAndIssue_networks .checksum _ _ _ _
  rw [Reference.effectuated]
  apply @verifyAndEffectuate_atomic .checksum
  intro hex drawn
  rw [World.effect, networks]
  exact fresh.effects _ _

end NetworkFinality
