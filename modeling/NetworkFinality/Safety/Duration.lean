import NetworkFinality.Safety.SinkAtomicity

/-!
# The duration of an effect

A permitted effect is within the envelope of its authority and its policy exactly
when the request proposes a duration, and one within the policy where the candidate
asked for none. Without a proposed duration the sink compares nothing, so whatever
it permits it also permits without end.
-/

namespace NetworkFinality

open Python Semantics Procedure

/-- The effect has a duration, within the authority's maximum and the policy's. -/
structure WithinEnvelope (policy : PolicyConfig) (authority : NetworkFinalityAuthority)
    (effect : NetworkEffect) : Prop where
  authority : ∀ maximum, authority.scope.durationSecondsMax = some maximum →
    ∃ duration, effect.durationSeconds = some duration ∧ duration ≤ maximum
  policy : ∃ duration, effect.durationSeconds = some duration ∧
    (duration : Int) ≤ policy.maxEffectDurationSeconds

/-- The request proposes a duration, within the policy where the candidate has none. -/
def ProposesBound (policy : PolicyConfig) (candidate : NetworkCandidateAct)
    (request : SinkRequest) : Prop :=
  ∃ duration, request.proposedEffect.durationSeconds = some duration ∧
    (candidate.requestedEffect.durationSeconds = none →
      (duration : Int) ≤ policy.maxEffectDurationSeconds)

/-- The request with no duration for its effect. -/
def SinkRequest.withoutDuration (request : SinkRequest) : SinkRequest :=
  { request with proposedEffect := { request.proposedEffect with durationSeconds := none } }

section

variable [Hashlib] {sink : NetworkFinalitySink} {request : SinkRequest} {draw : Option Str}
  {world after : World} {response : SinkVerifyResponse}

/-- What a run that returns has recorded. -/
theorem recorded_of_ok
    (ran : (sink.verifyAndEffectuate request draw).run World.exec world = (.ok response, after)) :
    ∃ authority evidence activation effectId,
      Permitted world sink request authority evidence activation ∧
        response.networkEffectId = some effectId ∧
        after.effect sink.network effectId =
          some (NetworkFinalitySink.effectOf request authority) := by
  obtain ⟨authority, evidence, activation, hex, permitted, rfl, rfl, rfl⟩ :=
    NetworkFinalitySink.verifyAndEffectuate_ok.mp ran
  refine ⟨authority, evidence, activation, _, permitted, rfl, ?_⟩
  simp [World.effect, NetworkFinalitySink.applied, World.exec, DemoNetwork.apply]

/-- A permitted request is permitted without its duration too. -/
theorem permitted_withoutDuration {authority : NetworkFinalityAuthority}
    {evidence : EvidenceRecord} {activation : ActivationRecord}
    (permitted : Permitted world sink request authority evidence activation) :
    Permitted world sink request.withoutDuration authority evidence activation where
  toAuthenticated := ⟨permitted.presented, permitted.keyId, permitted.algorithm,
    permitted.signature, permitted.unexpired⟩
  toEvidenceMatches := permitted.toEvidenceMatches
  toActivationMatches := permitted.toActivationMatches
  toSinkMatches := permitted.toSinkMatches
  toScopeMatches := {
    nonce := permitted.nonce
    activationNonce := permitted.activationNonce
    sequence := permitted.sequence
    actType := permitted.actType
    resourceType := permitted.resourceType
    resourceIds := permitted.resourceIds
    subscriberScope := permitted.subscriberScope
    purpose := permitted.purpose
    jurisdiction := permitted.jurisdiction
    effectType := permitted.effectType
    parameters := permitted.parameters
    parametersDigest := permitted.parametersDigest
    duration := by
      intro maximum bounded duration proposed
      cases proposed }
  evidenceStored := permitted.evidenceStored
  activationStored := permitted.activationStored
  unused := permitted.unused
  reference := permitted.reference
  epochs := permitted.epochs

/-- Whatever a sink permits, it permits without end. -/
theorem ran_withoutDuration
    (ran : (sink.verifyAndEffectuate request draw).run World.exec world = (.ok response, after)) :
    ∃ final, (sink.verifyAndEffectuate request.withoutDuration draw).run World.exec world =
      (.ok response, final) := by
  obtain ⟨authority, evidence, activation, hex, permitted, drawn, rfl, -⟩ :=
    NetworkFinalitySink.verifyAndEffectuate_ok.mp ran
  exact ⟨_, NetworkFinalitySink.verifyAndEffectuate_ok.mpr ⟨authority, evidence, activation, hex,
    permitted_withoutDuration permitted, drawn, rfl, rfl⟩⟩

/-- The scope of an issued authority, and the policy its candidate has met. -/
theorem issued_duration {ped : ProtectedEnforcementDomain} {draws : IssueDraws}
    {candidate : NetworkCandidateAct} {before issued : World} {decision : NetworkValidationDecision}
    {authority : NetworkFinalityAuthority}
    (ran : (ped.validateAndIssue draws candidate).run World.exec before =
      (.ok ⟨decision, some authority⟩, issued)) :
    authority.scope.durationSecondsMax = candidate.requestedEffect.durationSeconds ∧
      ∀ duration, candidate.requestedEffect.durationSeconds = some duration →
        (duration : Int) ≤ ped.policy.maxEffectDurationSeconds := by
  obtain ⟨past, returned, -⟩ := (run_ok_iff World.exec).mp ran
  obtain ⟨now, evidence, activation, issued⟩ :=
    ProtectedEnforcementDomain.issued_of_returns returned
  exact ⟨congrArg (·.durationSecondsMax) issued.prepared.scope, issued.validated.duration⟩

end

/-- A permitted effect is within the envelope exactly when its request proposes a
bound. -/
theorem duration_envelope_iff [Hashlib] {ped : ProtectedEnforcementDomain} {draws : IssueDraws}
    {candidate : NetworkCandidateAct} {before issued : World} {decision : NetworkValidationDecision}
    {authority : NetworkFinalityAuthority}
    (ran : (ped.validateAndIssue draws candidate).run World.exec before =
      (.ok ⟨decision, some authority⟩, issued))
    {sink : NetworkFinalitySink} {request : SinkRequest} {draw : Option Str} {world after : World}
    {response : SinkVerifyResponse} (presented : request.authority = some authority)
    (permitted : (sink.verifyAndEffectuate request draw).run World.exec world =
      (.ok response, after)) :
    ∃ effectId effect, response.networkEffectId = some effectId ∧
      after.effect sink.network effectId = some effect ∧
      (WithinEnvelope ped.policy authority effect ↔
        ProposesBound ped.policy candidate request) := by
  obtain ⟨scope, policy⟩ := issued_duration ran
  obtain ⟨authority', evidence, activation, effectId, met, named, recorded⟩ :=
    recorded_of_ok permitted
  obtain rfl := Option.some.inj (presented.symm.trans met.presented)
  refine ⟨effectId, _, named, recorded, ?_⟩
  constructor
  · intro within
    obtain ⟨duration, proposed, bounded⟩ := within.policy
    exact ⟨duration, proposed, fun _ => bounded⟩
  · rintro ⟨duration, proposed, bounded⟩
    have authorized : ∀ maximum, authority.scope.durationSecondsMax = some maximum →
        duration ≤ maximum := fun maximum bound => met.duration maximum bound duration proposed
    refine ⟨fun maximum bound => ⟨duration, proposed, authorized maximum bound⟩,
      duration, proposed, ?_⟩
    cases requested : candidate.requestedEffect.durationSeconds with
    | none => exact bounded requested
    | some maximum =>
        have least := authorized maximum (scope.trans requested)
        have most := policy maximum requested
        omega

namespace Reference

/-- The candidate asks for two minutes, and so does the effect. -/
private theorem durations : candidate.requestedEffect.durationSeconds = some 120 ∧
    effect.durationSeconds = some 120 := by
  decide +kernel

/-- The reference effect is within the envelope. -/
theorem duration_envelope : ∃ effectId effect, finalWorld.effect 0 effectId = some effect ∧
    WithinEnvelope start.ped.policy authority effect := by
  obtain ⟨decision, issuing⟩ := issued_authority
  obtain ⟨response, effectuating⟩ := effectuated_response
  rw [issued] at issuing
  rw [effectuated] at effectuating
  obtain ⟨effectId, effect, -, recorded, within⟩ :=
    @duration_envelope_iff .checksum _ _ _ _ _ _ _ issuing _ _ _ _ _ _ rfl effectuating
  refine ⟨effectId, effect, recorded, within.mpr ⟨120, durations.2, ?_⟩⟩
  intro absent
  rw [durations.1] at absent
  cases absent

/-- Without its duration the reference effect is permitted without end. -/
theorem duration_envelope_fails :
    (∃ decision, issued.1 = .ok ⟨decision, some authority⟩) ∧
      authority.scope.durationSecondsMax = some 120 ∧
      ∃ response after effectId effect,
        (@NetworkFinalitySink.verifyAndEffectuate .checksum start.sink request.withoutDuration
          (some "0000000001")).run (@World.exec .checksum) issuedWorld = (.ok response, after) ∧
        response.networkEffectId = some effectId ∧ after.effect 0 effectId = some effect ∧
        effect.durationSeconds = none ∧
        ¬ WithinEnvelope start.ped.policy authority effect := by
  obtain ⟨decision, issuing⟩ := issued_authority
  obtain ⟨response, effectuating⟩ := effectuated_response
  refine ⟨⟨decision, congrArg (·.1) issuing⟩, ?_, ?_⟩
  · rw [issued] at issuing
    rw [(@issued_duration .checksum _ _ _ _ _ _ _ issuing).1, durations.1]
  · rw [effectuated] at effectuating
    obtain ⟨after, ran⟩ := @ran_withoutDuration .checksum _ _ _ _ _ _ effectuating
    obtain ⟨authority', _, _, effectId, -, named, recorded⟩ := @recorded_of_ok .checksum _ _ _ _ _ _ ran
    refine ⟨response, after, effectId, _, ran, named, recorded, rfl, ?_⟩
    intro within
    obtain ⟨duration, present, -⟩ := within.policy
    cases present

end Reference
end NetworkFinality
