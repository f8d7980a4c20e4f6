import NetworkFinality.Model.Ped

/-!
# The finality sink

`verifyAndEffectuate` runs its guards in the source's order, grouped by what they
compare. Each group adds the entries it has passed to `checks`, which a denial
reports. Only `effectuate`, the part under the lock, writes anything.
-/

namespace NetworkFinality

open Python Semantics Procedure

structure NetworkFinalitySink where
  sinkId : Str
  sinkType : Str
  verifier : Verifier
  network : Nat

/-- The keyword arguments of `verify_and_effectuate`. -/
structure SinkRequest where
  requestId : Str
  candidate : NetworkCandidateAct
  authority : Option NetworkFinalityAuthority
  proposedEffect : ProposedEffect

/-- `_deny`. -/
def deny (requestId : Str) (reason : FailureReason) (message : Str) (checks : Dict Str)
    (authorityId : Option Str) : SinkVerifyResponse where
  requestId := requestId
  decision := .deny
  code := code reason
  verification := checks
  authorityId := authorityId
  consumed := false
  effectuationPermitted := false
  networkEffectId := none
  message := some message

/-- Deny the request when the condition holds. -/
abbrev refuseIf (condition : Prop) [Decidable condition] (request : SinkRequest)
    (reason : FailureReason) (message : Str) (checks : Dict Str) (authorityId : Option Str) :
    Program Unit :=
  exitIf condition (.denied (deny request.requestId reason message checks authorityId))

/-- The value, or a denial when there is none. -/
def orRefuse {α : Type} (value : Option α) (request : SinkRequest) (reason : FailureReason)
    (message : Str) (checks : Dict Str) (authorityId : Option Str) : Program α :=
  match value with
  | some value => .done value
  | none => .exit (.denied (deny request.requestId reason message checks authorityId))

@[simp] theorem orRefuse_some {α : Type} {value : α} {request : SinkRequest}
    {reason : FailureReason} {message : Str} {checks : Dict Str} {authorityId : Option Str} :
    orRefuse (some value) request reason message checks authorityId = .done value := rfl

@[simp] theorem returns_orRefuse {α : Type} {value : Option α} {request : SinkRequest}
    {reason : FailureReason} {message : Str} {checks : Dict Str} {authorityId : Option Str}
    {result : α} {past : List (Event system)} :
    (orRefuse value request reason message checks authorityId).Returns past result ↔
      value = some result ∧ past = [] := by
  cases value <;> simp [orRefuse, eq_comm, and_comm]

@[simp] theorem uses_orRefuse {α : Type} {value : Option α} {request : SinkRequest}
    {reason : FailureReason} {message : Str} {checks : Dict Str} {authorityId : Option Str}
    {permitted : Op → Prop} :
    (orRefuse value request reason message checks authorityId).Uses permitted := by
  cases value <;> simp [orRefuse]

section

variable {request : SinkRequest} {reason : FailureReason} {message : Str} {checks : Dict Str}
  {authorityId : Option Str} {permitted : Exit → Prop}

theorem leaves_refuseIf {condition : Prop} [Decidable condition]
    (refused : permitted (.denied (deny request.requestId reason message checks authorityId))) :
    (refuseIf condition request reason message checks authorityId).Leaves permitted :=
  Procedure.leaves_exitIf refused

theorem leaves_orRefuse {α : Type} {value : Option α}
    (refused : permitted (.denied (deny request.requestId reason message checks authorityId))) :
    (orRefuse value request reason message checks authorityId).Leaves permitted := by
  cases value with
  | none => exact .exit refused
  | some value => exact .done value

end

namespace NetworkFinalitySink

/-- The authority is present, signed by the verifier's key, and not expired. -/
def authenticate (sink : NetworkFinalitySink) (request : SinkRequest) (now : DateTime) :
    Program (NetworkFinalityAuthority × Dict Str) := do
  let authority ← orRefuse request.authority request .noFinalityAuthority
    "no finality authority supplied" ∅ none
  let id := some authority.authorityId
  refuseIf (authority.issuer.keyId ≠ sink.verifier.keyId ∨
      authority.issuer.algorithm ≠ sink.verifier.algorithm)
    request .invalidAuthority "unrecognized signing key or algorithm" ∅ id
  let payload ← orRaise (unsignedAuthorityPayload authority)
  refuseIf (sink.verifier.verify payload authority.issuer.signature = false)
    request .invalidAuthority "authority signature verification failed" ∅ id
  let checks := Dict.set ∅ "authority_signature" ("VALID" : Str)
  refuseIf (authority.lifetime.expiresAt ≤ now)
    request .staleAuthority "authority is expired" checks id
  return (authority, checks)

/-- The candidate and the evidence are those the authority binds. -/
def matchEvidence [Hashlib] (request : SinkRequest) (authority : NetworkFinalityAuthority)
    (checks : Dict Str) : Program (Str × Dict Str) := do
  let candidate := request.candidate
  let id := some authority.authorityId
  let digest ← orRaise (candidateDigest candidate)
  refuseIf (digest ≠ authority.binding.candidateActDigest.value ∨
      candidate.candidateActId.1 ≠ authority.candidateActId)
    request .actMismatch "candidate act does not match authority binding" checks id
  let checks := checks.set "candidate_act_binding" "MATCH"
  let found ← ask (.getEvidence authority.binding.evidenceId)
  let found ← orRaise found
  let evidence ← orRefuse found request .evidenceMissing
    "protected validation evidence missing or mismatched" checks id
  refuseIf (evidence.digest ≠ authority.binding.evidenceDigest.value ∨
      evidence.decision ≠ ("ALLOW" : Str) ∨
      evidence.candidateActId ≠ candidate.candidateActId ∨
      evidence.decisionId ≠ authority.decisionId)
    request .evidenceMissing "protected validation evidence missing or mismatched" checks id
  return (digest, checks.set "evidence_binding" "MATCH")

/-- The activation record is that of the authority, and unused. -/
def matchActivation [Hashlib] (sink : NetworkFinalitySink) (request : SinkRequest)
    (authority : NetworkFinalityAuthority) (now : DateTime) (digest : Str) (checks : Dict Str) :
    Program (ActivationRecord × Dict Str) := do
  let id := some authority.authorityId
  let found ← ask (.getActivation authority.authorityId)
  let found ← orRaise found
  let activation ← orRefuse found request .activationMissing
    "sink-local activation state is absent" checks id
  refuseIf (activation.expiresAt ≤ now)
    request .staleAuthority "sink-local activation state is expired" checks id
  refuseIf (activation.sinkId ≠ sink.sinkId)
    request .sinkMismatch "activation state is bound to a different sink" checks id
  let authorityDigest ← orRaise (authorityDigest authority)
  refuseIf (activation.authorityDigest ≠ authorityDigest ∨ activation.candidateDigest ≠ digest)
    request .protectedStateMismatch "sink-local activation state does not match authority" checks id
  refuseIf (activation.activationCommitment ≠ authority.binding.activationCommitment)
    request .protectedStateMismatch "activation commitment mismatch" checks id
  let checks := checks.set "activation_binding" "MATCH"
  let used ← ask (.isUsed authority.authorityId)
  let used ← orRaise used
  refuseIf (used = true)
    request .authorityAlreadyUsed "single-use authority has already been consumed" checks id
  return (activation, checks.set "consumption_state" "UNUSED")

/-- The authority and the candidate name this sink. -/
def matchSink (sink : NetworkFinalitySink) (request : SinkRequest)
    (authority : NetworkFinalityAuthority) (checks : Dict Str) : Program (Dict Str) := do
  let candidate := request.candidate
  let id := some authority.authorityId
  refuseIf (authority.binding.finalitySinkId ≠ sink.sinkId ∨
      candidate.finalitySink.sinkId.1 ≠ sink.sinkId)
    request .sinkMismatch "authority is bound to a different finality sink" checks id
  refuseIf (authority.binding.effectuationBoundaryId ≠
        ProtectedEnforcementDomain.boundaryId sink.sinkType sink.sinkId ∨
      candidate.finalitySink.sinkType.value ≠ sink.sinkType)
    request .effectuationBoundaryMismatch "effectuation boundary or sink type mismatch" checks id
  return checks.set "sink_binding" "MATCH"

/-- One comparison of a bound epoch with the current one. -/
def matchEpoch (request : SinkRequest) (authority : NetworkFinalityAuthority) (epoch : Epoch)
    (bound : Nat) (reason : FailureReason) (message : Str) (name : Str) (checks : Dict Str) :
    Program (Dict Str) := do
  let current ← ask (.epoch epoch)
  refuseIf ((bound : Int) ≠ current) request reason message checks (some authority.authorityId)
  return checks.set name "CURRENT"

theorem matchEpoch_leaves {request : SinkRequest} {authority : NetworkFinalityAuthority}
    {epoch : Epoch} {bound : Nat} {reason : FailureReason} {message name : Str}
    {checks : Dict Str} {permitted : Exit → Prop}
    (refused : permitted
      (.denied (deny request.requestId reason message checks (some authority.authorityId)))) :
    (matchEpoch request authority epoch bound reason message name checks).Leaves permitted :=
  .bind Procedure.leaves_perform fun _ => .bind (leaves_refuseIf refused) fun _ => .done _

/-- The protected state is still the one the authority binds. -/
def matchState (request : SinkRequest) (authority : NetworkFinalityAuthority)
    (checks : Dict Str) : Program (Dict Str) := do
  let reference ← ask .protectedStateReference
  refuseIf (authority.binding.protectedStateReference ≠ reference)
    request .protectedStateMismatch "protected state reference mismatch" checks
    (some authority.authorityId)
  let checks ← matchEpoch request authority .topology authority.binding.topologyEpoch
    .networkStateMismatch "topology epoch changed after validation" "topology_epoch" checks
  let checks ← matchEpoch request authority .configuration authority.binding.configurationEpoch
    .networkStateMismatch "configuration epoch changed after validation" "configuration_epoch"
    checks
  let checks ← matchEpoch request authority .policy authority.binding.policyEpoch
    .policyEpochMismatch "policy epoch changed after validation" "policy_epoch" checks
  let checks ← matchEpoch request authority .authority authority.binding.authorityEpoch
    .protectedStateMismatch "authority epoch changed after validation" "authority_epoch" checks
  matchEpoch request authority .revocation authority.binding.revocationEpoch
    .revocationStateMismatch "revocation epoch changed after validation" "revocation_epoch" checks

/-- The candidate and the proposed effect stay within the authority's scope. -/
def matchScope [Hashlib] (request : SinkRequest) (authority : NetworkFinalityAuthority)
    (activation : ActivationRecord) (checks : Dict Str) : Program (Dict Str) := do
  let candidate := request.candidate
  let effect := request.proposedEffect
  let scope := authority.scope
  let id := some authority.authorityId
  refuseIf (authority.binding.nonce.1 ≠ candidate.freshness.nonce ∨
      activation.nonce ≠ candidate.freshness.nonce)
    request .nonceFailure "nonce mismatch" checks id
  let checks := checks.set "nonce" "FRESH"
  refuseIf (authority.binding.sequence ≠ candidate.freshness.sequence)
    request .nonceFailure "sequence mismatch" checks id
  let checks := checks.set "sequence" "MATCH"
  refuseIf (scope.actType ≠ candidate.actType)
    request .consequenceClassMismatch "act type exceeds issued authority" checks id
  refuseIf (scope.resourceType ≠ effect.resourceType)
    request .scopeMismatch "resource type mismatch" checks id
  refuseIf (effect.resourceIds.1.toFinset ≠ scope.resourceIds.1.toFinset)
    request .scopeMismatch "resource IDs do not match issued scope" checks id
  let checks := checks.set "resource_scope" "MATCH"
  refuseIf (scope.subscriberScope ≠ candidate.resourceScope.subscriberScope)
    request .scopeMismatch "subscriber scope changed" checks id
  let checks := checks.set "subscriber_scope" "MATCH"
  refuseIf (scope.purposeId ≠ candidate.purpose.purposeId)
    request .purposeMismatch "purpose changed" checks id
  let checks := checks.set "purpose" "MATCH"
  refuseIf (scope.jurisdiction ≠ candidate.networkContext.jurisdiction)
    request .jurisdictionMismatch "jurisdiction changed" checks id
  refuseIf (effect.effectType ≠ scope.permittedEffectType)
    request .consequenceClassMismatch "effect type differs from authority" checks id
  let parametersDigest ← orRaise
    (digestValue effect.parametersValue effect.parametersDigest.algorithm)
  refuseIf (parametersDigest ≠ effect.parametersDigest.value)
    request .descriptorMismatch "proposed effect parameters_digest is internally inconsistent"
    checks id
  refuseIf (effect.parametersDigest.value.1 ≠ scope.parametersDigest)
    request .actMismatch "effect parameters differ from Candidate Act" checks id
  let checks := checks.set "effect_parameters" "MATCH"
  -- Both durations have to be present for the comparison to be made.
  refuseIf (∃ maximum ∈ scope.durationSecondsMax, ∃ duration ∈ effect.durationSeconds,
      maximum < duration)
    request .scopeMismatch "effect duration exceeds authority" checks id
  return checks

/-- Every guard before the lock, in order. -/
def verify [Hashlib] (sink : NetworkFinalitySink) (request : SinkRequest) :
    Program (NetworkFinalityAuthority × Dict Str) := do
  let now ← ask .clock
  let (authority, checks) ← sink.authenticate request now
  let (digest, checks) ← matchEvidence request authority checks
  let (activation, checks) ← sink.matchActivation request authority now digest checks
  let checks ← sink.matchSink request authority checks
  let checks ← matchState request authority checks
  let checks ← matchScope request authority activation checks
  return (authority, checks)

/-- The effect a request applies under an authority. -/
def effectOf (request : SinkRequest) (authority : NetworkFinalityAuthority) : NetworkEffect where
  candidateActId := request.candidate.candidateActId
  authorityId := authority.authorityId
  effectType := request.proposedEffect.effectType
  resourceType := request.proposedEffect.resourceType.value
  resourceIds := request.proposedEffect.resourceIds
  parameters := request.proposedEffect.parameters
  durationSeconds := request.proposedEffect.durationSeconds

/-- The response to an applied effect. -/
def allow (request : SinkRequest) (authority : NetworkFinalityAuthority) (checks : Dict Str)
    (effectId : Str) : SinkVerifyResponse where
  requestId := request.requestId
  decision := .allow
  code := "OK"
  verification := checks.set "consumption_state" "CONSUMED"
  authorityId := some authority.authorityId
  consumed := true
  effectuationPermitted := true
  networkEffectId := some effectId
  message := none

/-- Consume the authority and apply the effect, or undo the consumption. -/
def effectuate (sink : NetworkFinalitySink) (request : SinkRequest) (draw : Option Str)
    (authority : NetworkFinalityAuthority) (checks : Dict Str) : Program SinkVerifyResponse := do
  let id := some authority.authorityId
  let used ← ask (.isUsed authority.authorityId)
  let used ← orRaise used
  refuseIf (used = true)
    request .authorityAlreadyUsed "authority was consumed concurrently" checks id
  let consumed ← ask (.consume authority.authorityId)
  let consumed ← orRaise consumed
  refuseIf (consumed = false)
    request .authorityAlreadyUsed "authority could not be consumed" checks id
  let applied ← ask (.apply sink.network (effectOf request authority) draw)
  match applied with
  | .ok effectId => return allow request authority checks effectId
  | .error error => do
      let undone ← ask (.unconsume authority.authorityId)
      orRaise undone
      .exit (.raised error)

def verifyAndEffectuate [Hashlib] (sink : NetworkFinalitySink) (request : SinkRequest)
    (draw : Option Str) : Program SinkVerifyResponse := do
  let (authority, checks) ← sink.verify request
  sink.effectuate request draw authority checks

end NetworkFinalitySink
end NetworkFinality
