import NetworkFinality.Refinement.Steps
import NetworkFinality.Spec.Sink

/-!
# When a request is permitted

A sink that works without interference permits a request exactly when the request
meets every guard on what the world holds. The call then consumes the authority and
applies the effect, and does nothing else.
-/

namespace NetworkFinality

open Python Semantics Procedure

/-- The request meets every guard on what the world holds. -/
structure Permitted [Hashlib] (world : World) (sink : NetworkFinalitySink) (request : SinkRequest)
    (authority : NetworkFinalityAuthority) (evidence : EvidenceRecord)
    (activation : ActivationRecord) : Prop extends
    Admitted sink request authority world.clock evidence activation where
  evidenceStored : world.evidenceStore.get authority.binding.evidenceId = .ok (some evidence)
  activationStored : world.activationStore.get authority.authorityId = .ok (some activation)
  unused : world.activationStore.isUsed authority.authorityId = .ok false
  reference : world.state.protectedStateReference = authority.binding.protectedStateReference
  epochs : ∀ epoch, world.state.epoch epoch = (authority.binding.epoch epoch : Int)

namespace World

variable {world : World} {authority : NetworkFinalityAuthority}

/-- What `get` and `isUsed` say together is what the table holds. -/
theorem unused_of_reads {authorityId : Str} {found : ActivationRecord}
    (read : world.activationStore.get authorityId = .ok (some found))
    (unused : world.activationStore.isUsed authorityId = .ok false) :
    ∃ record, world.activations authorityId = some record ∧ record.used = false := by
  obtain ⟨record, present, -⟩ := Option.map_eq_some_iff.mp (ActivationStore.get_ok read).symm
  refine ⟨record, present, ?_⟩
  have flag := ActivationStore.isUsed_some present
  exact (Except.ok.inj (unused.symm.trans flag)).symm

/-- The bound epochs are current when each of the five is. -/
theorem epochs_iff :
    (∀ epoch, world.state.epoch epoch = (authority.binding.epoch epoch : Int)) ↔
      world.state.epoch .topology = (authority.binding.topologyEpoch : Int) ∧
        world.state.epoch .configuration = (authority.binding.configurationEpoch : Int) ∧
        world.state.epoch .policy = (authority.binding.policyEpoch : Int) ∧
        world.state.epoch .authority = (authority.binding.authorityEpoch : Int) ∧
        world.state.epoch .revocation = (authority.binding.revocationEpoch : Int) := by
  constructor
  · intro current
    exact ⟨current .topology, current .configuration, current .policy, current .authority,
      current .revocation⟩
  · rintro ⟨topology, configuration, policy, authority, revocation⟩ epoch
    cases epoch <;> assumption

/-- The reads of the guards are answered by the world itself. -/
theorem answers_guards [Hashlib] {now : DateTime} {evidence : EvidenceRecord}
    {activation : ActivationRecord} :
    (∀ event ∈ guardEvents authority now evidence activation,
        event.answer = (exec event.op world).1) ↔
      now = world.clock ∧
        world.evidenceStore.get authority.binding.evidenceId = .ok (some evidence) ∧
        world.activationStore.get authority.authorityId = .ok (some activation) ∧
        world.activationStore.isUsed authority.authorityId = .ok false ∧
        world.state.protectedStateReference = authority.binding.protectedStateReference ∧
        ∀ epoch, world.state.epoch epoch = (authority.binding.epoch epoch : Int) := by
  rw [epochs_iff]
  simp only [guardEvents, List.forall_mem_cons, List.not_mem_nil, false_implies, implies_true,
    and_true, exec]
  simp only [eq_comm]

end World

/-- The reads of the guards leave every world as it is. -/
theorem guardEvents_readOnly [Hashlib] {authority : NetworkFinalityAuthority} {now : DateTime}
    {evidence : EvidenceRecord} {activation : ActivationRecord} {event : Event system}
    (member : event ∈ guardEvents authority now evidence activation) :
    ReadOnly World.exec event.op := by
  simp only [guardEvents, List.mem_cons, List.not_mem_nil, or_false] at member
  rcases member with rfl | rfl | rfl | rfl | rfl | rfl | rfl | rfl | rfl | rfl <;>
    exact World.exec_readOnly rfl

namespace Permitted

variable [Hashlib] {world : World} {sink : NetworkFinalitySink} {request : SinkRequest}
  {authority : NetworkFinalityAuthority} {evidence : EvidenceRecord} {activation : ActivationRecord}
  (permitted : Permitted world sink request authority evidence activation)

include permitted

/-- A world answers the guards of a request that it permits. -/
theorem guards_answered :
    Answered World.exec world (guardEvents authority world.clock evidence activation) world := by
  refine (answered_readOnly World.exec fun _ => guardEvents_readOnly).mpr
    ⟨rfl, World.answers_guards.mpr ?_⟩
  exact ⟨rfl, permitted.evidenceStored, permitted.activationStored, permitted.unused,
    permitted.reference, permitted.epochs⟩

/-- The authority of a permitted request can be consumed. -/
theorem consumes : (World.exec (.consume authority.authorityId) world).1 = .ok true := by
  obtain ⟨record, present, unused⟩ :=
    World.unused_of_reads permitted.activationStored permitted.unused
  exact World.exec_consume_unused world present unused

end Permitted

namespace NetworkFinalitySink

variable {sink : NetworkFinalitySink} {request : SinkRequest}
  {authority : NetworkFinalityAuthority} {checks : Dict Str} {past : List (Event system)}
  {draw : Option Str} {response : SinkVerifyResponse}

/-- What the part under the lock performs when it returns. -/
theorem effectuate_returns :
    (sink.effectuate request draw authority checks).Returns past response ↔
      ∃ effectId,
        past = [⟨.isUsed authority.authorityId, .ok false⟩,
          ⟨.consume authority.authorityId, .ok true⟩,
          ⟨.apply sink.network (effectOf request authority) draw, .ok effectId⟩] ∧
        response = allow request authority checks effectId := by
  simp only [effectuate, ask, perform, call_bind, done_bind, returns_call, returns_orRaise_bind,
    returns_exitIf_bind]
  constructor
  · rintro ⟨_, _, rfl, used, rfl, unused, _, _, rfl, consumed, rfl, succeeded, applied, _, rfl, rest⟩
    obtain rfl := Bool.not_eq_true _ ▸ unused
    obtain rfl := Bool.not_eq_false _ ▸ succeeded
    cases applied with
    | ok effectId =>
        obtain ⟨rfl, rfl⟩ := returns_done.mp rest
        exact ⟨effectId, rfl, rfl⟩
    | error error => simp at rest
  · rintro ⟨effectId, rfl, rfl⟩
    refine ⟨_, _, rfl, false, rfl, by simp, _, _, rfl, true, rfl, by simp, _, _, rfl, ?_⟩
    exact returns_done.mpr ⟨rfl, rfl⟩

/-- What the part under the lock performs when it allows. -/
def lockEvents (sink : NetworkFinalitySink) (request : SinkRequest)
    (authority : NetworkFinalityAuthority) (draw : Option Str) (effectId : Str) :
    List (Event system) :=
  [⟨.isUsed authority.authorityId, .ok false⟩, ⟨.consume authority.authorityId, .ok true⟩,
    ⟨.apply sink.network (effectOf request authority) draw, .ok effectId⟩]

variable [Hashlib] {world after : World}

/-- A call whose effect is next has had its request admitted on the answers it has read, and
has consumed the authority. -/
theorem apply_next {network : Nat} {effect : NetworkEffect} {draw' : Option Str}
    {next : Op.Answer (.apply network effect draw') → Program SinkVerifyResponse}
    (path : (sink.verifyAndEffectuate request draw).Path past
      (.call (.apply network effect draw') next)) :
    ∃ authority now evidence activation,
      Admitted sink request authority now evidence activation ∧
      past = guardEvents authority now evidence activation ++
        [⟨.isUsed authority.authorityId, .ok false⟩,
          ⟨.consume authority.authorityId, .ok true⟩] := by
  obtain ⟨⟨authority, checks⟩, guards, lock, verified, effectuating, rfl⟩ :=
    path_bind_of_call verify_reads path (by simp [Op.isWrite])
  obtain ⟨now, evidence, activation, admitted, rfl, -⟩ := verify_returns.mp verified
  refine ⟨authority, now, evidence, activation, admitted, ?_⟩
  rw [List.append_cancel_left_eq]
  simp only [effectuate, ask, perform, call_bind, done_bind] at effectuating
  rcases path_call_iff.mp effectuating with ⟨-, same⟩ | ⟨used, tail, rfl, afterUsed⟩
  · cases same
  rcases used with error | _ | _
  · cases (path_exit_iff.mp afterUsed).2
  · rw [orRaise_ok, done_bind, refuseIf, exitIf_neg (by simp), done_bind] at afterUsed
    rcases path_call_iff.mp afterUsed with ⟨-, same⟩ | ⟨consumed, tail, rfl, afterConsumed⟩
    · cases same
    rcases consumed with error | _ | _
    · cases (path_exit_iff.mp afterConsumed).2
    · rw [orRaise_ok, done_bind, refuseIf, exitIf_pos rfl, exit_bind] at afterConsumed
      cases (path_exit_iff.mp afterConsumed).2
    · rw [orRaise_ok, done_bind, refuseIf, exitIf_neg (by simp), done_bind] at afterConsumed
      rcases path_call_iff.mp afterConsumed with ⟨rfl, -⟩ | ⟨applied, tail, rfl, afterApplied⟩
      · rfl
      · cases applied with
        | ok effectId => cases (path_done_iff.mp afterApplied).2
        | error reason =>
            rcases path_call_iff.mp afterApplied with ⟨-, same⟩ | ⟨undone, tail, rfl, afterUndone⟩
            · cases same
            · cases undone <;> cases (path_exit_iff.mp afterUndone).2
  · rw [orRaise_ok, done_bind, refuseIf, exitIf_pos rfl, exit_bind] at afterUsed
    cases (path_exit_iff.mp afterUsed).2

/-- A call returns exactly when its request is admitted on the answers it reads, and its
consumption and its effect succeed. -/
theorem verifyAndEffectuate_returns :
    (sink.verifyAndEffectuate request draw).Returns past response ↔
      ∃ authority now evidence activation effectId,
        Admitted sink request authority now evidence activation ∧
        past = guardEvents authority now evidence activation ++
          lockEvents sink request authority draw effectId ∧
        response = allow request authority guardChecks effectId := by
  constructor
  · intro returned
    obtain ⟨⟨authority, checks⟩, guards, lock, verified, effectuated, rfl⟩ :=
      returns_bind.mp returned
    obtain ⟨now, evidence, activation, admitted, rfl, rfl⟩ := verify_returns.mp verified
    obtain ⟨effectId, rfl, rfl⟩ := effectuate_returns.mp effectuated
    exact ⟨authority, now, evidence, activation, effectId, admitted, rfl, rfl⟩
  · rintro ⟨authority, now, evidence, activation, effectId, admitted, rfl, rfl⟩
    exact returns_bind.mpr ⟨_, _, _, verify_returns.mpr ⟨now, evidence, activation, admitted, rfl,
      rfl⟩, effectuate_returns.mpr ⟨effectId, rfl, rfl⟩, rfl⟩

/-- Consuming the authority and applying the effect, as a run leaves them. -/
def applied (sink : NetworkFinalitySink) (request : SinkRequest)
    (authority : NetworkFinalityAuthority) (hex : Str) (world : World) : World :=
  let consumed := (World.exec (.consume authority.authorityId) world).2
  (World.exec (.apply sink.network (effectOf request authority) (some hex)) consumed).2

/-- A run returns a response exactly for a permitted request whose effect does not
fail. -/
theorem verifyAndEffectuate_ok :
    (sink.verifyAndEffectuate request draw).run World.exec world = (.ok response, after) ↔
      ∃ authority evidence activation hex,
        Permitted world sink request authority evidence activation ∧ draw = some hex ∧
        response = allow request authority guardChecks (("net-effect-" : Str) ++ hex) ∧
        after = sink.applied request authority hex world := by
  rw [run_ok_iff]
  constructor
  · rintro ⟨past, returned, answered⟩
    obtain ⟨authority, now, evidence, activation, effectId, admitted, rfl, rfl⟩ :=
      verifyAndEffectuate_returns.mp returned
    obtain ⟨middle, guarded, locked⟩ := (answered_append World.exec).mp answered
    obtain ⟨rfl, answers⟩ := (answered_readOnly World.exec fun _ => guardEvents_readOnly).mp guarded
    obtain ⟨rfl, evidenceStored, activationStored, unused, reference, epochs⟩ :=
      World.answers_guards.mp answers
    obtain ⟨-, -, recorded, rfl⟩ := locked
    obtain ⟨⟨hex, rfl, rfl⟩, -⟩ := World.exec_apply _ recorded.symm
    exact ⟨authority, evidence, activation, hex,
      ⟨admitted, evidenceStored, activationStored, unused, reference, epochs⟩, rfl, rfl, rfl⟩
  · rintro ⟨authority, evidence, activation, hex, permitted, rfl, rfl, rfl⟩
    refine ⟨_, verifyAndEffectuate_returns.mpr ⟨_, _, _, _, _, permitted.toAdmitted, rfl, rfl⟩, ?_⟩
    exact (answered_append World.exec).mpr
      ⟨world, permitted.guards_answered, permitted.unused.symm, permitted.consumes.symm, rfl, rfl⟩

end NetworkFinalitySink
end NetworkFinality
