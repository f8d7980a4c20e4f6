import NetworkFinality.Refinement.Steps
import NetworkFinality.Spec.Ped

/-!
# What an issued authority stands for

An issuing call that runs without interference reads one world throughout, although
it reads the protected state three times. So what it has validated, what its
decision shows and what its authority binds agree, and all of it is the world's.
-/

namespace NetworkFinality

open Python Semantics Procedure

/-- The candidate passes the policy in the world. -/
structure Valid (policy : PolicyConfig) (candidate : NetworkCandidateAct) (world : World) :
    Prop where
  created : candidate.createdAt ≤ world.clock
  unexpired : world.clock < candidate.expiresAt
  age : world.clock.sub candidate.createdAt ≤ policy.maxCandidateAge
  policyEpoch : world.state.policyEpoch = candidate.policyState.policyEpoch
  authorityEpoch : world.state.authorityEpoch = candidate.policyState.authorityEpoch
  revocationEpoch : world.state.revocationEpoch = candidate.policyState.revocationEpoch
  sinkId : candidate.finalitySink.sinkId.1 ∈ world.state.allowedSinkIds
  jurisdictionPresent : truthy candidate.networkContext.jurisdiction = true
  jurisdiction : world.state.allowedJurisdictions = ∅ ∨
    ∃ jurisdiction ∈ world.state.allowedJurisdictions,
      candidate.networkContext.jurisdiction = some jurisdiction
  purpose : world.state.allowedPurposes = ∅ ∨
    candidate.purpose.purposeId.1 ∈ world.state.allowedPurposes
  actType : policy.allowedActTypes = ∅ ∨ candidate.actType.value ∈ policy.allowedActTypes
  duration : ∀ duration, candidate.requestedEffect.durationSeconds = some duration →
    (duration : Int) ≤ policy.maxEffectDurationSeconds

/-- The binding holds the state of the world. -/
structure BindsState (binding : AuthorityBinding) (world : World) : Prop where
  reference : world.state.protectedStateReference = binding.protectedStateReference
  epochs : ∀ epoch, world.state.epoch epoch = (binding.epoch epoch : Int)

namespace Validated

variable [Hashlib] {policy : PolicyConfig} {candidate : NetworkCandidateAct} {now : DateTime}
  {past : List (Event system)} {world : World}

private theorem listed {list : Allowlist} {value : Option Str} (read : Listed list value past)
    (answers : ∀ event ∈ past, event.op.observesState = true →
      event.answer = (World.exec event.op world).1) :
    world.state.allowed list = ∅ ∨ ∃ entry ∈ world.state.allowed list, value = some entry := by
  obtain ⟨entries, event, holds⟩ := read
  obtain rfl : entries = world.state.allowed list := answers _ event rfl
  exact holds

/-- A candidate validated on the world's own answers is valid in it. -/
theorem valid (validated : Validated policy candidate now past)
    (clock : now = world.clock)
    (answers : ∀ event ∈ past, event.op.observesState = true →
      event.answer = (World.exec event.op world).1) :
    Valid policy candidate world where
  created := by
    have future := validated.created
    rw [clock, DateTime.lt_iff] at future
    rw [DateTime.le_iff]
    omega
  unexpired := by
    have stale := validated.unexpired
    rw [clock, DateTime.le_iff] at stale
    rw [DateTime.lt_iff]
    omega
  age := clock ▸ validated.age
  policyEpoch := (answers _ validated.policyEpoch rfl).symm
  authorityEpoch := (answers _ validated.authorityEpoch rfl).symm
  revocationEpoch := (answers _ validated.revocationEpoch rfl).symm
  sinkId := by
    obtain ⟨sinkIds, read, allowed⟩ := validated.sinkId
    obtain rfl : sinkIds = world.state.allowedSinkIds := answers _ read rfl
    exact allowed
  jurisdictionPresent := validated.jurisdictionPresent
  jurisdiction := listed validated.jurisdiction answers
  purpose := by
    rcases listed validated.purpose answers with empty | ⟨purpose, allowed, same⟩
    · exact .inl empty
    · obtain rfl := Option.some.inj same
      exact .inr allowed
  actType := validated.actType
  duration := validated.duration

end Validated

namespace ProtectedEnforcementDomain

/-- An authority expires no later than its candidate, and within the policy's time to
live. -/
theorem Prepared.lifetime [Hashlib] {ped : ProtectedEnforcementDomain}
    {candidate : NetworkCandidateAct} {evidence : EvidenceRecord} {draws : IssueDraws}
    {now : DateTime} {authority : NetworkFinalityAuthority} {activation : ActivationRecord}
    {past : List (Event system)}
    (prepared : ped.Prepared candidate evidence draws now authority activation past)
    (unexpired : now < candidate.expiresAt) :
    authority.lifetime.expiresAt ≤ candidate.expiresAt ∧
      authority.lifetime.expiresAt.sub now ≤ ped.policy.authorityTtl := by
  have added := DateTime.add_ok prepared.expiresAt
  rw [DateTime.lt_iff] at unexpired
  rw [DateTime.sub] at added
  rw [DateTime.le_iff, DateTime.sub]
  omega

/-- What a call has issued, and the world that answered it. -/
structure IssuedIn [Hashlib] (ped : ProtectedEnforcementDomain) (draws : IssueDraws)
    (candidate : NetworkCandidateAct) (world : World) (decision : NetworkValidationDecision)
    (evidence : EvidenceRecord) (authority : NetworkFinalityAuthority)
    (activation : ActivationRecord) (past : List (Event system)) : Prop where
  issued : ped.Issued draws candidate world.clock decision evidence authority activation past
  valid : Valid ped.policy candidate world
  binds : BindsState authority.binding world
  lifetime : authority.lifetime.expiresAt ≤ candidate.expiresAt
  ttl : authority.lifetime.expiresAt.sub world.clock ≤ ped.policy.authorityTtl
  committed : ⟨.commitEvidence evidence.toEvidenceFields, .ok evidence⟩ ∈ past
  fields : ∃ counter, evidence.toEvidenceFields =
    evidenceOf candidate decision draws world.clock world.state.protectedStateReference counter
  digest : evidence.toEvidenceFields.bodyDigest evidence.previousDigest = .ok evidence.digest

/-- A call that runs without interference issues on what its world holds. -/
theorem Issued.issuedIn [Hashlib] {ped : ProtectedEnforcementDomain} {draws : IssueDraws}
    {candidate : NetworkCandidateAct} {now : DateTime} {decision : NetworkValidationDecision}
    {evidence : EvidenceRecord} {authority : NetworkFinalityAuthority}
    {activation : ActivationRecord} {past : List (Event system)} {world final : World}
    (issued : ped.Issued draws candidate now decision evidence authority activation past)
    (answered : Answered World.exec world past final) :
    ped.IssuedIn draws candidate world decision evidence authority activation past := by
  have answers := World.observes.answers answered
  obtain rfl : now = world.clock := answers _ issued.clock rfl
  have bound := issued.prepared.binding
  have valid := issued.validated.valid rfl answers
  obtain ⟨lifetime, ttl⟩ := issued.prepared.lifetime valid.unexpired
  obtain ⟨reference, counter, read, committed⟩ := issued.committed
  obtain rfl : reference = world.state.protectedStateReference := answers _ read rfl
  obtain ⟨middle, answer⟩ := answered.event World.exec committed
  obtain ⟨fields, digest, -⟩ := World.exec_commit middle answer.symm
  rw [← fields] at committed digest
  refine ⟨issued, valid, ⟨?_, ?_⟩, lifetime, ttl, committed, ⟨counter, fields⟩, digest⟩
  · exact (answers _ bound.reference rfl).symm
  · intro epoch
    exact (answers _ (bound.epochs epoch) rfl).symm

end ProtectedEnforcementDomain
end NetworkFinality
