import NetworkFinality.Safety.EvidenceFirst
import NetworkFinality.Spec.Issue
import NetworkFinality.Spec.Permit

/-!
# Provenance of every effect

In a history of whole calls, with any changes of the clock and the protected state in
between, every recorded effect goes back to an earlier call that issued its
authority. The sink reads neither the candidate's expiry nor the epochs its
candidate was validated under, nor the allowlists; that they were met follows from
the digests, which tie what is presented to what was issued.
-/

namespace NetworkFinality

open Python Semantics Procedure

/-- What the evidence under an issued authority's identifier says. -/
structure Attests [Hashlib] (candidate : NetworkCandidateAct)
    (decision : NetworkValidationDecision) (authority : NetworkFinalityAuthority)
    (issuing : World) (stored : EvidenceRecord) : Prop where
  evidenceId : decision.evidenceId = some authority.binding.evidenceId
  candidateAct : stored.candidateActId = candidate.candidateActId.1
  decisionId : stored.decisionId = decision.decisionId
  committedAt : stored.committedAt.toUtc = .ok issuing.clock
  reference : stored.protectedStateReference = issuing.state.protectedStateReference
  recomputes : stored.toEvidenceFields.bodyDigest stored.previousDigest = .ok stored.digest

/-- What stands behind an effect: what its authority was issued on, and what held when
it took place. -/
structure Justified [Hashlib] (ped : ProtectedEnforcementDomain) (candidate : NetworkCandidateAct)
    (issuing : World) (decision : NetworkValidationDecision) (authority : NetworkFinalityAuthority)
    (sink : NetworkFinalitySink) (request : SinkRequest) (effectuating : World) : Prop where
  allowed : decision.decision = .allow
  presented : request.authority = some authority
  validated : request.candidate = candidate
  valid : Valid ped.policy candidate issuing
  bound : BindsState authority.binding issuing
  current : BindsState authority.binding effectuating
  policyEpoch : effectuating.state.policyEpoch = candidate.policyState.policyEpoch
  authorityEpoch : effectuating.state.authorityEpoch = candidate.policyState.authorityEpoch
  revocationEpoch : effectuating.state.revocationEpoch = candidate.policyState.revocationEpoch
  issuedAt : authority.lifetime.issuedAt = issuing.clock
  ttl : authority.lifetime.expiresAt.sub issuing.clock ≤ ped.policy.authorityTtl
  lifetime : authority.lifetime.expiresAt ≤ candidate.expiresAt
  unexpired : effectuating.clock < authority.lifetime.expiresAt
  evidence : ∃ stored, Evidenced effectuating authority stored ∧
    Attests candidate decision authority issuing stored
  sinkId : candidate.finalitySink.sinkId.1 = sink.sinkId
  sinkType : candidate.finalitySink.sinkType.value = sink.sinkType
  effectType : request.proposedEffect.effectType = candidate.requestedEffect.effectType
  resourceType : request.proposedEffect.resourceType = candidate.resourceScope.resourceType
  resourceIds : request.proposedEffect.resourceIds.1.toFinset =
    candidate.resourceScope.resourceIds.1.toFinset
  parameters : digestValue request.proposedEffect.parametersValue
    request.proposedEffect.parametersDigest.algorithm =
      .ok candidate.requestedEffect.parametersDigest.value
  duration : ∀ maximum, candidate.requestedEffect.durationSeconds = some maximum →
    ∀ duration, request.proposedEffect.durationSeconds = some duration → duration ≤ maximum

section

variable [Hashlib] {ped : ProtectedEnforcementDomain} {draws : IssueDraws}
  {candidate : NetworkCandidateAct} {issuing effectuating : World}
  {decision : NetworkValidationDecision} {evidence stored : EvidenceRecord}
  {authority : NetworkFinalityAuthority} {activation read : ActivationRecord}
  {past : List (Event system)} {sink : NetworkFinalitySink} {request : SinkRequest}

/-- The evidence an authority was issued on says so wherever it is still stored. -/
private theorem attests
    (issued : ped.IssuedIn draws candidate issuing decision evidence authority activation past)
    (same : stored.SameInstant evidence) : Attests candidate decision authority issuing stored := by
  obtain ⟨counter, returned⟩ := issued.fields
  obtain ⟨time, instant, instant'⟩ := same.instant
  have atIssue : evidence.committedAt = .utc issuing.clock := congrArg (·.committedAt) returned
  rw [atIssue, AwareDateTime.toUtc_utc] at instant'
  obtain rfl := Except.ok.inj instant'
  have named : stored.decisionId = evidence.decisionId := congrArg (·.decisionId) same.fields
  have act : stored.candidateActId = evidence.candidateActId :=
    congrArg (·.candidateActId) same.fields
  have reference : stored.protectedStateReference = evidence.protectedStateReference :=
    congrArg (·.protectedStateReference) same.fields
  refine ⟨?_, ?_, ?_, instant, ?_, same.recomputes issued.digest⟩
  · rw [issued.issued.decisionEvidence, issued.issued.prepared.binding.evidenceId]
  · exact act.trans (congrArg (·.candidateActId) returned)
  · rw [issued.issued.decided.decisionId]
    exact named.trans (congrArg (·.decisionId) returned)
  · exact reference.trans (congrArg (·.protectedStateReference) returned)

/-- A permitted request for what was issued is justified. -/
private theorem justified
    (issued : ped.IssuedIn draws candidate issuing decision evidence authority activation past)
    (permitted : Permitted effectuating sink request authority stored read)
    (same : request.candidate = candidate)
    (attests : Attests candidate decision authority issuing stored) :
    Justified ped candidate issuing decision authority sink request effectuating := by
  have scope := issued.issued.prepared.scope
  have current : BindsState authority.binding effectuating :=
    ⟨permitted.reference, permitted.epochs⟩
  have unchanged (epoch : Epoch) : effectuating.state.epoch epoch = issuing.state.epoch epoch :=
    (current.epochs epoch).trans (issued.binds.epochs epoch).symm
  subst same
  exact {
    allowed := issued.issued.decided.outcome
    presented := permitted.presented
    validated := rfl
    valid := issued.valid
    bound := issued.binds
    current := current
    policyEpoch := (unchanged .policy).trans issued.valid.policyEpoch
    authorityEpoch := (unchanged .authority).trans issued.valid.authorityEpoch
    revocationEpoch := (unchanged .revocation).trans issued.valid.revocationEpoch
    issuedAt := issued.issued.prepared.issuedAt
    ttl := issued.ttl
    lifetime := issued.lifetime
    unexpired := by
      have unexpired := permitted.unexpired
      rw [DateTime.le_iff] at unexpired
      rw [DateTime.lt_iff]
      omega
    evidence := ⟨stored, ⟨permitted.evidenceStored, permitted.evidenceDigest,
      permitted.evidenceDecision, permitted.evidenceCandidate.trans permitted.candidateActId,
      permitted.evidenceDecisionId⟩, attests⟩
    sinkId := permitted.candidateSink
    sinkType := permitted.candidateSinkType
    effectType := by rw [permitted.effectType, scope]; rfl
    resourceType := by rw [← permitted.resourceType, scope]; rfl
    resourceIds := by rw [permitted.resourceIds, scope]; rfl
    parameters := by
      rw [permitted.parameters, permitted.parametersDigest, scope]
      rfl
    duration := by
      intro maximum requested
      apply permitted.duration maximum
      rw [scope]
      exact requested }

end

section

variable [Hashlib] {initial final : World} {turns : List (Turn Call World)}
  (history : History Call.program World.exec World.Environment initial turns final)

include history

private theorem steps : Pool.Steps World.exec unrestricted (Pool.initial Call.program initial)
    (Turn.pool Call.program World.exec turns final) :=
  history.pool (fun _ _ _ _ => trivial) fun _ _ => id

/-- The turn that has applied a recorded effect, and that its request was permitted. -/
private theorem effectuating_turn (fresh : initial.Fresh) {network : Nat} {effectId : Str}
    {effect : NetworkEffect} (recorded : final.effect network effectId = some effect) :
    ∃ before later sink request draw effectuating authority stored read,
      turns = before ++ ⟨.verifyAndEffectuate sink request draw, effectuating⟩ :: later ∧
        sink.network = network ∧ effect = NetworkFinalitySink.effectOf request authority ∧
        Permitted effectuating sink request authority stored read := by
  obtain ⟨thread, member, draw, applied⟩ :=
    effect_applied unrestricted_environment (steps history) fresh.effects recorded
  obtain ⟨⟨call, effectuating⟩, listed, rfl⟩ := List.mem_map.mp member
  obtain ⟨before, later, split⟩ := List.append_of_mem listed
  obtain ⟨sink, request, authority, rfl, same, rfl, cleared, -, response, ended⟩ :=
    applied_of_thread applied
  have outcome : ((sink.verifyAndEffectuate request draw).run World.exec effectuating).1 =
      .ok response := ended_eq_done.mp ended
  obtain ⟨authority', stored, read, hex, permitted, -⟩ :=
    NetworkFinalitySink.verifyAndEffectuate_ok.mp (Prod.ext outcome rfl)
  obtain ⟨_, _, _, admitted, -⟩ := cleared
  obtain rfl := Option.some.inj (admitted.presented.symm.trans permitted.presented)
  exact ⟨before, later, sink, request, draw, effectuating, authority, stored, read, split,
    same.symm, rfl, permitted⟩

/-- The turn that has issued a record which is found later. -/
private theorem issuing_turn (fresh : initial.Fresh) {authorityId : Str} {record : ActivationRecord}
    (present : final.activations.issued authorityId = some record) :
    ∃ earlier between ped draws candidate issuing decision evidence authority activation,
      turns = earlier ++ ⟨.validateAndIssue ped draws candidate, issuing⟩ :: between ∧
        ((ped.validateAndIssue draws candidate).run World.exec issuing).1 =
          .ok ⟨decision, some authority⟩ ∧
        ped.IssuedIn draws candidate issuing decision evidence authority activation
          ((ped.validateAndIssue draws candidate).trace World.exec issuing) ∧
        activation.withUsed false = record := by
  obtain ⟨thread, member, activation, put, -, same⟩ :=
    activation_put unrestricted_environment.activationsKept fresh (steps history) present
  obtain ⟨⟨call, issuing⟩, listed, rfl⟩ := List.mem_map.mp member
  obtain ⟨earlier, between, split⟩ := List.append_of_mem listed
  obtain ⟨ped, draws, candidate, -, -, -, -, rfl, -⟩ := issued_of_thread put
  obtain ⟨now, decision, evidence, authority, issued, ended⟩ :=
    ProtectedEnforcementDomain.issued_of_put (trace_path World.exec _ issuing) put
  exact ⟨earlier, between, ped, draws, candidate, issuing, decision, evidence, authority,
    activation, split, ended_eq_done.mp ended, issued.issuedIn (trace_answered World.exec _ issuing),
    same⟩

end

/-- Every effect of a history goes back to an earlier call that issued its authority,
which justifies it. -/
theorem effect_provenance [Hashlib] {initial final : World} {turns : List (Turn Call World)}
    (fresh : initial.Fresh) (unrecorded : initial.Unrecorded)
    (history : History Call.program World.exec World.Environment initial turns final)
    (authoritiesDiffer : CollisionFree authorityDigest
      (authorities (Turn.pool Call.program World.exec turns final)))
    (candidatesDiffer : CollisionFree candidateDigest
      (candidates (Turn.pool Call.program World.exec turns final)))
    (bodiesDiffer : CollisionFree (fun body => body.1.bodyDigest body.2)
      (evidenceBodies (Turn.pool Call.program World.exec turns final)))
    {network : Nat} {effectId : Str} {effect : NetworkEffect}
    (recorded : final.effect network effectId = some effect) :
    ∃ earlier between later ped draws candidate issuing decision authority sink request draw
        effectuating,
      turns = earlier ++ ⟨.validateAndIssue ped draws candidate, issuing⟩ :: between ++
        ⟨.verifyAndEffectuate sink request draw, effectuating⟩ :: later ∧
      ((ped.validateAndIssue draws candidate).run World.exec issuing).1 =
        .ok ⟨decision, some authority⟩ ∧
      sink.network = network ∧ effect = NetworkFinalitySink.effectOf request authority ∧
      Justified ped candidate issuing decision authority sink request effectuating := by
  obtain ⟨before, later, sink, request, draw, effectuating, authority, stored, read, split, on,
    applied, permitted⟩ := effectuating_turn history fresh recorded
  have past := history.up_to split
  obtain ⟨earlier, between, ped, draws, candidate, issuing, decision, evidence, issued, activation,
    split', outcome, facts, same⟩ := issuing_turn past fresh
      (ActivationStore.get_ok permitted.activationStored).symm
  have whole : turns = earlier ++ ⟨.validateAndIssue ped draws candidate, issuing⟩ :: between ++
      ⟨.verifyAndEffectuate sink request draw, effectuating⟩ :: later := by rw [split, split']
  have prepared := facts.issued.prepared
  have acts : ⟨.verifyAndEffectuate sink request draw, effectuating⟩ ∈ turns := by simp [split]
  have issues : ⟨.validateAndIssue ped draws candidate, issuing⟩ ∈ turns := by simp [whole]
  -- The presented authority has the digest of the issued one, so it is that authority.
  have occurs : authority ∈ authorities (Turn.pool Call.program World.exec turns final) :=
    ⟨_, Turn.thread_mem_pool acts final, .inl permitted.presented⟩
  have occurs' : issued ∈ authorities (Turn.pool Call.program World.exec turns final) :=
    ⟨_, Turn.thread_mem_pool issues final, .inr ⟨_, ended_eq_done.mpr outcome, rfl⟩⟩
  have digests : activation.authorityDigest = read.authorityDigest :=
    congrArg (·.authorityDigest) same
  obtain rfl := authoritiesDiffer _ occurs _ occurs' _ permitted.activationAuthority
    (digests ▸ prepared.authorityDigest)
  -- The authority binds the digest of the candidate it was issued for.
  have given : request.candidate ∈ candidates (Turn.pool Call.program World.exec turns final) :=
    ⟨_, Turn.thread_mem_pool acts final, rfl⟩
  have given' : candidate ∈ candidates (Turn.pool Call.program World.exec turns final) :=
    ⟨_, Turn.thread_mem_pool issues final, rfl⟩
  have validated : request.candidate = candidate :=
    candidatesDiffer _ given _ given' _ permitted.candidateDigest
      (prepared.binding.candidateActDigest ▸ prepared.candidateDigest)
  -- The stored evidence has the digest the authority binds.
  have earlier_issues : ⟨.validateAndIssue ped draws candidate, issuing⟩ ∈ before := by
    simp [split']
  have issuer : Turn.thread Call.program World.exec
      ⟨.validateAndIssue ped draws candidate, issuing⟩ ∈
        (Turn.pool Call.program World.exec before effectuating).threads :=
    Turn.thread_mem_pool earlier_issues effectuating
  have fewer : evidenceBodies (Turn.pool Call.program World.exec before effectuating) ⊆
      evidenceBodies (Turn.pool Call.program World.exec turns final) := by
    rintro body ⟨thread, member, record, committed⟩
    obtain ⟨turn, listed, rfl⟩ := List.mem_map.mp member
    have listed' : turn ∈ turns := by simp [split, listed]
    exact ⟨_, Turn.thread_mem_pool listed' final, record, committed⟩
  have stands := evidence_stored unrestricted_environment (steps past) unrecorded
    (bodiesDiffer.mono fewer) issuer facts.committed (EvidenceStore.get_eq permitted.evidenceStored).symm
    (permitted.evidenceDigest.trans prepared.binding.evidenceDigest)
  exact ⟨earlier, between, later, ped, draws, candidate, issuing, decision, authority, sink, request,
    draw, effectuating, whole, outcome, on, applied, justified facts permitted validated
      (attests facts stands)⟩

/-- The effect of the reference run is justified. -/
theorem effect_provenance_reference :
    ∃ effect, Reference.finalWorld.effect 0 "net-effect-0000000001" = some effect ∧
      ∃ candidate issuing decision authority request effectuating,
        effect = NetworkFinalitySink.effectOf request authority ∧
        ∃ ped sink, @Justified .checksum ped candidate issuing decision authority sink request
          effectuating := by
  have recorded := Reference.effectuated_allow.2.1
  rw [Option.map_eq_some_iff] at recorded
  obtain ⟨effect, recorded, -⟩ := recorded
  refine ⟨effect, recorded, ?_⟩
  have fresh : Reference.start.world.Fresh := buildReferenceSystem_fresh _ _
  have unrecorded : Reference.start.world.Unrecorded := buildReferenceSystem_unrecorded _ _
  obtain ⟨-, -, -, ped, -, candidate, issuing, decision, authority, sink, request, -, effectuating,
      -, -, -, applied, justified⟩ :=
    @effect_provenance .checksum _ _ _ fresh unrecorded Reference.history
      (fun _ occurs _ occurs' _ _ _ =>
        (authorities_reference occurs).trans (authorities_reference occurs').symm)
      (fun _ occurs _ occurs' _ _ _ =>
        (candidates_reference occurs).trans (candidates_reference occurs').symm)
      (fun _ occurs _ occurs' _ _ _ => evidenceBodies_reference occurs occurs') _ _ _ recorded
  exact ⟨candidate, issuing, decision, authority, request, effectuating, applied, ped, sink,
    justified⟩

end NetworkFinality
