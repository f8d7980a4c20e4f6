import NetworkFinality.Model.Policy

/-!
# The protected enforcement domain

`validateAndIssue` validates a candidate, reserves its nonce, commits evidence of
the decision and, for an allowed candidate, issues a signed authority with its
activation record. The protected state is read in three places: by the policy, for
the decision's snapshots, and for the authority's binding. The random draws of a
call are its arguments.
-/

namespace NetworkFinality

open Python Semantics Procedure

structure ProtectedEnforcementDomain where
  pedId : Str
  policy : PolicyConfig
  signer : Signer

structure PEDResult where
  decision : NetworkValidationDecision
  authority : Option NetworkFinalityAuthority
deriving DecidableEq

/-- What one call draws from `uuid.uuid4().hex[:12]` and `secrets.token_bytes(32)`. -/
structure IssueDraws where
  decisionHex : Str
  evidenceHex : Str
  authorityHex : Str
  token : Bytes

namespace IssueDraws

def decisionId (draws : IssueDraws) : Str := ("nvd-" : Str) ++ draws.decisionHex
def evidenceId (draws : IssueDraws) : Str := ("evidence-" : Str) ++ draws.evidenceHex
def authorityId (draws : IssueDraws) : Str := ("nfa-" : Str) ++ draws.authorityHex

end IssueDraws

namespace ProtectedEnforcementDomain

/-- The denial of a candidate, by the policy or by the nonce registry. -/
def screen (ped : ProtectedEnforcementDomain) (candidate : NetworkCandidateAct) (now : DateTime) :
    Program (Option Denial) := do
  let validated ← (ped.policy.validate candidate now).attempt
  match validated with
  | .error denial => return some denial
  | .ok () => do
      let fresh ← ask (.reserve candidate.freshness.nonce)
      return if fresh then none
        else some ⟨.replayDetected, "candidate nonce has already been presented to the PED"⟩

/-- `ok or not (...)`, which reads the state only for a denied candidate. -/
def attested (ped : ProtectedEnforcementDomain) (ok : Bool) : Program Bool :=
  if ok then .done true else do
    let required ← ped.policy.requiresAttestation
    return !required

/-- `_decision`: the decision with snapshots of the network and protected state. -/
def decision (ped : ProtectedEnforcementDomain) (candidate : NetworkCandidateAct)
    (denial : Option Denial) (decisionId : Str) : Program NetworkValidationDecision := do
  let ok := denial.isNone
  let initiatorAttested ← ped.attested ok
  let topologyEpoch ← ask (.epoch .topology)
  let configurationEpoch ← ask (.epoch .configuration)
  let topologyEpoch ← orRaise (nonNegative topologyEpoch)
  let configurationEpoch ← orRaise (nonNegative configurationEpoch)
  let stateReference ← ask .protectedStateReference
  let monotonicCounter ← ask .monotonicCounter
  let stateReference ← orRaise (MinStr.validate 1 stateReference)
  let monotonicCounter ← orRaise (nonNegative monotonicCounter)
  return {
    decisionId := decisionId
    candidateActId := candidate.candidateActId
    decision := if ok then .allow else .deny
    validatedPredicates := {
      initiatorAttested := initiatorAttested
      resourceScopeValid := ok
      subscriberScopeValid := ok
      purposeValid := ok
      requestedEffectValid := ok
      operatorPolicyValid := ok
      regulatoryPolicyValid := ok
      networkStateValid := ok
      policyEpochValid := ok
      revocationStateValid := ok
      freshnessValid := ok
      sinkBindingValid := ok }
    networkState := {
      topologyEpoch := topologyEpoch
      configurationEpoch := configurationEpoch
      sliceState := "ACTIVE"
      congestionState := "NORMAL" }
    protectedState := { stateReference := stateReference, monotonicCounter := monotonicCounter }
    evidenceId := none
    denialCode := denial.map Denial.code }

/-- The evidence of a decision. -/
def evidenceOf (candidate : NetworkCandidateAct) (decision : NetworkValidationDecision)
    (draws : IssueDraws) (now : DateTime) (reference : Str) (counter : Int) : EvidenceFields where
  evidenceId := draws.evidenceId
  candidateActId := candidate.candidateActId
  decisionId := draws.decisionId
  decision := decision.decision.value
  committedAt := .utc now
  protectedStateReference := reference
  monotonicCounter := counter

/-- Advance the counter and commit evidence of the decision. -/
def record (candidate : NetworkCandidateAct) (decision : NetworkValidationDecision)
    (draws : IssueDraws) (now : DateTime) : Program (EvidenceRecord × NetworkValidationDecision) := do
  let counter ← ask .advanceCounter
  let reference ← ask .protectedStateReference
  let committed ← ask (.commitEvidence (evidenceOf candidate decision draws now reference counter))
  let evidence ← orRaise committed
  return (evidence, {
    decision with
    evidenceId := some evidence.evidenceId
    protectedState := { decision.protectedState with monotonicCounter := counter } })

/-- The scope of an authority: that of its candidate. -/
def scopeOf (candidate : NetworkCandidateAct) : AuthorityScope where
  actType := candidate.actType
  resourceType := candidate.resourceScope.resourceType
  resourceIds := candidate.resourceScope.resourceIds
  subscriberScope := candidate.resourceScope.subscriberScope
  permittedEffectType := candidate.requestedEffect.effectType
  parametersDigest := candidate.requestedEffect.parametersDigest.value
  durationSecondsMax := candidate.requestedEffect.durationSeconds
  networkDomain := candidate.networkContext.networkDomain
  jurisdiction := candidate.networkContext.jurisdiction
  purposeId := candidate.purpose.purposeId

/-- `f"boundary:{sink_type}:{sink_id}"`. -/
def boundaryId (sinkType sinkId : Str) : Str :=
  ("boundary:" : Str) ++ sinkType ++ (":" : Str) ++ sinkId

/-- The binding of an authority, for which the state is read once more. -/
def bindingOf (candidate : NetworkCandidateAct) (digest : Str) (evidence : EvidenceRecord)
    (commitment : Str) : Program AuthorityBinding := do
  let candidateActDigest ← orRaise (MinStr.validate 8 digest)
  let evidenceDigest ← orRaise (MinStr.validate 8 evidence.digest)
  let reference ← ask .protectedStateReference
  let topologyEpoch ← ask (.epoch .topology)
  let configurationEpoch ← ask (.epoch .configuration)
  let policyEpoch ← ask (.epoch .policy)
  let authorityEpoch ← ask (.epoch .authority)
  let revocationEpoch ← ask (.epoch .revocation)
  let topologyEpoch ← orRaise (nonNegative topologyEpoch)
  let configurationEpoch ← orRaise (nonNegative configurationEpoch)
  let policyEpoch ← orRaise (nonNegative policyEpoch)
  let authorityEpoch ← orRaise (nonNegative authorityEpoch)
  let revocationEpoch ← orRaise (nonNegative revocationEpoch)
  let activationCommitment ← orRaise (MinStr.validate 16 commitment)
  return {
    candidateActDigest := ⟨.sha256, candidateActDigest⟩
    evidenceId := evidence.evidenceId
    evidenceDigest := ⟨.sha256, evidenceDigest⟩
    protectedStateReference := reference
    topologyEpoch := topologyEpoch
    configurationEpoch := configurationEpoch
    policyEpoch := policyEpoch
    authorityEpoch := authorityEpoch
    revocationEpoch := revocationEpoch
    nonce := candidate.freshness.nonce
    sequence := candidate.freshness.sequence
    finalitySinkId := candidate.finalitySink.sinkId
    effectuationBoundaryId :=
      boundaryId candidate.finalitySink.sinkType.value candidate.finalitySink.sinkId
    activationCommitment := activationCommitment }

/-- Build and sign the authority of an allowed candidate, with its activation record. -/
def prepare [Hashlib] (ped : ProtectedEnforcementDomain) (candidate : NetworkCandidateAct)
    (evidence : EvidenceRecord) (draws : IssueDraws) (now : DateTime) :
    Program (NetworkFinalityAuthority × ActivationRecord) := do
  let digest ← orRaise (candidateDigest candidate)
  let commitment := b64url (hashBytes draws.token .sha256)
  let ttl := min ped.policy.authorityTtl (max 0 (candidate.expiresAt.sub now))
  let expiresAt ← orRaise (now.add ttl)
  let binding ← bindingOf candidate digest evidence commitment
  let unsigned : NetworkFinalityAuthority := {
    authorityId := draws.authorityId
    candidateActId := candidate.candidateActId
    decisionId := draws.decisionId
    scope := scopeOf candidate
    binding := binding
    lifetime := { issuedAt := now, expiresAt := expiresAt, singleUse := true }
    issuer := {
      pedId := ped.pedId
      keyId := ped.signer.keyId
      algorithm := ped.signer.algorithm
      signature := [] } }
  let payload ← orRaise (unsignedAuthorityPayload unsigned)
  let authority := unsigned.withSignature (ped.signer.sign payload)
  let authorityDigest ← orRaise (authorityDigest authority)
  return (authority, {
    authorityId := authority.authorityId
    authorityDigest := authorityDigest
    candidateDigest := digest
    sinkId := candidate.finalitySink.sinkId
    nonce := candidate.freshness.nonce
    activationCommitment := commitment
    expiresAt := expiresAt
    used := false })

/-- Issue the authority: its activation record is put last. -/
def issue [Hashlib] (ped : ProtectedEnforcementDomain) (candidate : NetworkCandidateAct)
    (evidence : EvidenceRecord) (draws : IssueDraws) (now : DateTime) :
    Program NetworkFinalityAuthority := do
  let (authority, activation) ← ped.prepare candidate evidence draws now
  let stored ← ask (.putActivation activation)
  orRaise stored
  return authority

def validateAndIssue [Hashlib] (ped : ProtectedEnforcementDomain) (draws : IssueDraws)
    (candidate : NetworkCandidateAct) : Program PEDResult := do
  let now ← ask .clock
  let denial ← ped.screen candidate now
  let decision ← ped.decision candidate denial draws.decisionId
  let (evidence, decision) ← record candidate decision draws now
  if denial.isSome then return ⟨decision, none⟩
  let authority ← ped.issue candidate evidence draws now
  return ⟨decision, some authority⟩

end ProtectedEnforcementDomain
end NetworkFinality
