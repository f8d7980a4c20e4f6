import NetworkFinality.Safety.Agreement
import NetworkFinality.Spec.DigestText

/-!
# Effect parameters and the candidate's commitment

A candidate commits to its parameters by an algorithm and a digest. The authority
carries the digest without the algorithm, and the sink recomputes it with the
algorithm that the proposed effect declares. So the parameters of a permitted effect
are those committed to exactly when the effect declares the candidate's algorithm.
-/

namespace NetworkFinality

open Python Semantics Procedure

/-- The parameters are a preimage of the digest the candidate has committed to. -/
def Meets [Hashlib] (effect : ProposedEffect) (candidate : NetworkCandidateAct) : Prop :=
  digestValue effect.parametersValue candidate.requestedEffect.parametersDigest.algorithm =
    .ok candidate.requestedEffect.parametersDigest.value

/-- A permitted effect carries the candidate's digest, under the algorithm it declares
itself. -/
theorem permitted_digest [Hashlib] {ped : ProtectedEnforcementDomain} {draws : IssueDraws}
    {candidate : NetworkCandidateAct} {decision : NetworkValidationDecision}
    {authority : NetworkFinalityAuthority} {issuing effecting : List (Event system)}
    (issued : (ped.validateAndIssue draws candidate).Returns issuing ⟨decision, some authority⟩)
    {sink : NetworkFinalitySink} {request : SinkRequest} {draw : Option Str}
    {response : SinkVerifyResponse} (presented : request.authority = some authority)
    (permitted : (sink.verifyAndEffectuate request draw).Returns effecting response) :
    digestValue request.proposedEffect.parametersValue
        request.proposedEffect.parametersDigest.algorithm =
      .ok candidate.requestedEffect.parametersDigest.value := by
  obtain ⟨now, evidence, activation, facts⟩ :=
    ProtectedEnforcementDomain.issued_of_returns issued
  obtain ⟨found, clock, read, record, effectId, admitted, -, -⟩ :=
    NetworkFinalitySink.verifyAndEffectuate_returns.mp permitted
  obtain rfl := Option.some.inj (presented.symm.trans admitted.presented)
  rw [admitted.parameters, admitted.parametersDigest, facts.prepared.scope]
  rfl

/-- Whatever happens between and beside the two calls, the parameters of a permitted
effect meet the candidate's commitment exactly when the effect declares the algorithm
of the candidate. -/
theorem permitted_meets_iff [Hashlib] {ped : ProtectedEnforcementDomain} {draws : IssueDraws}
    {candidate : NetworkCandidateAct} {decision : NetworkValidationDecision}
    {authority : NetworkFinalityAuthority} {issuing effecting : List (Event system)}
    (issued : (ped.validateAndIssue draws candidate).Returns issuing ⟨decision, some authority⟩)
    {sink : NetworkFinalitySink} {request : SinkRequest} {draw : Option Str}
    {response : SinkVerifyResponse} (presented : request.authority = some authority)
    (permitted : (sink.verifyAndEffectuate request draw).Returns effecting response) :
    Meets request.proposedEffect candidate ↔
      request.proposedEffect.parametersDigest.algorithm =
        candidate.requestedEffect.parametersDigest.algorithm := by
  have digested := permitted_digest issued presented permitted
  constructor
  · intro meets
    exact algorithm_of_digestValue digested meets
  · intro declared
    rw [Meets, ← declared, digested]

/-- An effect still conforms when both sides name another digest of its parameters,
whatever algorithm the candidate declares for it. -/
theorem Conforms.redigest [Hashlib] {candidate : NetworkCandidateAct} {effect : ProposedEffect}
    (conforms : Conforms candidate effect) (declared : HashAlgorithm) {algorithm : HashAlgorithm}
    {digest : MinStr 8} (digested : digestValue effect.parametersValue algorithm = .ok digest) :
    Conforms { candidate with
        requestedEffect := { candidate.requestedEffect with parametersDigest := ⟨declared, digest⟩ } }
      { effect with parametersDigest := ⟨algorithm, digest⟩ } where
  effectType := conforms.effectType
  resourceType := conforms.resourceType
  resourceIds := conforms.resourceIds
  parameters := digested
  parametersDigest := rfl
  duration := conforms.duration

namespace Reference

/-- The reference effect declares the algorithm of the reference candidate. -/
theorem permitted_meets_reference : @Meets .checksum effect candidate := by
  obtain ⟨decision, ran⟩ := issued_authority
  rw [issued] at ran
  obtain ⟨issuing, issues, -⟩ := (run_ok_iff (@World.exec .checksum)).mp ran
  obtain ⟨response, allowed⟩ := effectuated_response
  rw [effectuated] at allowed
  obtain ⟨effecting, permits, -⟩ := (run_ok_iff (@World.exec .checksum)).mp allowed
  have presented : request.authority = some authority := by simp only [request]
  have meets := @permitted_meets_iff .checksum _ _ _ _ _ _ _ issues _ _ _ _ presented permits
  simp only [request] at meets
  exact meets.mpr (by decide +kernel)

/-- The digest of the reference parameters under an algorithm of another size. -/
def crossDigest : MinStr 8 :=
  valueOf (do
    let text ← @digestValue .checksum effect.parametersValue .sha512
    MinStr.validate 8 text) (by decide +kernel)

theorem crossDigest_digests :
    @digestValue .checksum effect.parametersValue .sha512 = .ok crossDigest.1 := by
  have made := @valueOf_ok _ _ (do
    let text ← @digestValue .checksum effect.parametersValue .sha512
    MinStr.validate 8 text) (by decide +kernel)
  obtain ⟨text, digested, valid⟩ := bind_eq_ok.mp made
  rw [digested, ← MinStr.validate_ok valid, crossDigest]

/-- The candidate that declares the digest to be of its usual algorithm. -/
def crossCandidate : NetworkCandidateAct :=
  { candidate with
    requestedEffect := { candidate.requestedEffect with
      parametersDigest := ⟨.sha256, crossDigest⟩ } }

def crossIssued : Except Exit PEDResult × World :=
  (@ProtectedEnforcementDomain.validateAndIssue .checksum start.ped draws crossCandidate).run
    (@World.exec .checksum) start.world

def crossAuthority : NetworkFinalityAuthority :=
  (authorityOf crossIssued.1).get (by decide +kernel)

/-- The effect that declares the algorithm the digest really has. -/
def crossEffect : ProposedEffect := { effect with parametersDigest := ⟨.sha512, crossDigest⟩ }

def crossRequest : SinkRequest where
  requestId := "request-1"
  candidate := crossCandidate
  authority := some crossAuthority
  proposedEffect := crossEffect

theorem crossEffect_conforms : @Conforms .checksum crossCandidate crossEffect := by
  rw [crossCandidate, crossEffect]
  exact @Conforms.redigest .checksum _ _ effect_conforms .sha256 _ _ crossDigest_digests

/-- The sink permits an effect whose parameters are no preimage of the digest under the
algorithm that the candidate has declared. -/
theorem crossRequest_permitted :
    ∃ decision response issued after,
      (@ProtectedEnforcementDomain.validateAndIssue .checksum start.ped draws crossCandidate).run
          (@World.exec .checksum) start.world =
        (.ok ⟨decision, some crossAuthority⟩, issued) ∧
      (@NetworkFinalitySink.verifyAndEffectuate .checksum start.sink crossRequest
          (some "0000000001")).run (@World.exec .checksum) issued = (.ok response, after) ∧
      response.decision = .allow ∧ ¬ @Meets .checksum crossEffect crossCandidate := by
  have returned : authorityOf crossIssued.1 = some crossAuthority := (Option.some_get _).symm
  have named : start.sink.sinkId = crossCandidate.finalitySink.sinkId ∧
      start.sink.sinkType = crossCandidate.finalitySink.sinkType.value := by
    simp only [crossCandidate]
    exact start_named candidate_made rfl rfl
  have given : crossRequest.candidate = crossCandidate := by simp only [crossRequest]
  have presented : crossRequest.authority = some crossAuthority := by simp only [crossRequest]
  have conforms : @Conforms .checksum crossCandidate crossRequest.proposedEffect := by
    simp only [crossRequest, crossEffect_conforms]
  obtain ⟨response, allowed, decided⟩ := allowed_where_returned (by rw [crossIssued])
    returned named given presented conforms "0000000001"
  obtain ⟨decision, ran⟩ := ran_authority returned
  rw [crossIssued] at ran
  refine ⟨decision, response, _, _, ran, allowed, decided, ?_⟩
  intro meets
  simp only [Meets, crossCandidate, crossEffect] at meets
  cases @algorithm_of_digestValue .checksum _ _ _ _ _ crossDigest_digests meets

end Reference
end NetworkFinality
