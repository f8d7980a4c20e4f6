import Mathlib.Tactic.MkIffOfInductiveProp
import NetworkFinality.Model.Sink

/-!
# What the sink's guards establish

A request passes every guard exactly when it is `Admitted`: the conditions that the
guards check on the supplied objects and on what they have read. `guardEvents`
lists those reads. The equivalence serves both directions: an effect implies every
condition, and a request that meets them all is not denied.
-/

namespace NetworkFinality

open Python Semantics Procedure

/-- The authority is presented, signed by the verifier's key, and not expired. -/
@[mk_iff] structure Authenticated (sink : NetworkFinalitySink) (request : SinkRequest)
    (authority : NetworkFinalityAuthority) (now : DateTime) : Prop where
  presented : request.authority = some authority
  keyId : authority.issuer.keyId = sink.verifier.keyId
  algorithm : authority.issuer.algorithm = sink.verifier.algorithm
  signature : ∃ payload, unsignedAuthorityPayload authority = .ok payload ∧
    sink.verifier.verify payload authority.issuer.signature = true
  unexpired : ¬ authority.lifetime.expiresAt ≤ now

/-- The candidate and the evidence record are those the authority binds. -/
@[mk_iff] structure EvidenceMatches [Hashlib] (candidate : NetworkCandidateAct)
    (authority : NetworkFinalityAuthority) (evidence : EvidenceRecord) : Prop where
  candidateDigest : candidateDigest candidate = .ok authority.binding.candidateActDigest.value
  candidateActId : candidate.candidateActId.1 = authority.candidateActId
  evidenceDigest : evidence.digest = authority.binding.evidenceDigest.value
  evidenceDecision : evidence.decision = ("ALLOW" : Str)
  evidenceCandidate : evidence.candidateActId = candidate.candidateActId
  evidenceDecisionId : evidence.decisionId = authority.decisionId

/-- The activation record is current, for this sink, and that of the authority. -/
@[mk_iff] structure ActivationMatches [Hashlib] (sink : NetworkFinalitySink)
    (authority : NetworkFinalityAuthority) (now : DateTime) (digest : Str)
    (activation : ActivationRecord) : Prop where
  activationUnexpired : ¬ activation.expiresAt ≤ now
  activationSink : activation.sinkId = sink.sinkId
  activationAuthority : authorityDigest authority = .ok activation.authorityDigest
  activationCandidate : activation.candidateDigest = digest
  activationCommitment : activation.activationCommitment = authority.binding.activationCommitment

/-- The authority and the candidate name this sink and its boundary. -/
@[mk_iff] structure SinkMatches (sink : NetworkFinalitySink) (candidate : NetworkCandidateAct)
    (authority : NetworkFinalityAuthority) : Prop where
  boundSink : authority.binding.finalitySinkId = sink.sinkId
  candidateSink : candidate.finalitySink.sinkId.1 = sink.sinkId
  boundary : authority.binding.effectuationBoundaryId =
    ProtectedEnforcementDomain.boundaryId sink.sinkType sink.sinkId
  candidateSinkType : candidate.finalitySink.sinkType.value = sink.sinkType

/-- The candidate and the proposed effect stay within the authority's scope. -/
@[mk_iff] structure ScopeMatches [Hashlib] (request : SinkRequest) (authority : NetworkFinalityAuthority)
    (activation : ActivationRecord) : Prop where
  nonce : authority.binding.nonce.1 = request.candidate.freshness.nonce
  activationNonce : activation.nonce = request.candidate.freshness.nonce
  sequence : authority.binding.sequence = request.candidate.freshness.sequence
  actType : authority.scope.actType = request.candidate.actType
  resourceType : authority.scope.resourceType = request.proposedEffect.resourceType
  resourceIds : request.proposedEffect.resourceIds.1.toFinset =
    authority.scope.resourceIds.1.toFinset
  subscriberScope : authority.scope.subscriberScope =
    request.candidate.resourceScope.subscriberScope
  purpose : authority.scope.purposeId = request.candidate.purpose.purposeId
  jurisdiction : authority.scope.jurisdiction = request.candidate.networkContext.jurisdiction
  effectType : request.proposedEffect.effectType = authority.scope.permittedEffectType
  parameters : digestValue request.proposedEffect.parametersValue
    request.proposedEffect.parametersDigest.algorithm =
      .ok request.proposedEffect.parametersDigest.value
  parametersDigest : request.proposedEffect.parametersDigest.value.1 =
    authority.scope.parametersDigest
  duration : ∀ maximum, authority.scope.durationSecondsMax = some maximum →
    ∀ duration, request.proposedEffect.durationSeconds = some duration → duration ≤ maximum

/-- Every condition of the guards, on the clock reading, the evidence record and the
activation record they have read. -/
structure Admitted [Hashlib] (sink : NetworkFinalitySink) (request : SinkRequest)
    (authority : NetworkFinalityAuthority) (now : DateTime) (evidence : EvidenceRecord)
    (activation : ActivationRecord) : Prop extends
    Authenticated sink request authority now,
    EvidenceMatches request.candidate authority evidence,
    ActivationMatches sink authority now authority.binding.candidateActDigest.value activation,
    SinkMatches sink request.candidate authority,
    ScopeMatches request authority activation

/-- What the guards of an admitted request read, in order. -/
def guardEvents (authority : NetworkFinalityAuthority) (now : DateTime)
    (evidence : EvidenceRecord) (activation : ActivationRecord) : List (Event system) :=
  [⟨.clock, now⟩,
    ⟨.getEvidence authority.binding.evidenceId, .ok (some evidence)⟩,
    ⟨.getActivation authority.authorityId, .ok (some activation)⟩,
    ⟨.isUsed authority.authorityId, .ok false⟩,
    ⟨.protectedStateReference, authority.binding.protectedStateReference⟩,
    ⟨.epoch .topology, (authority.binding.topologyEpoch : Int)⟩,
    ⟨.epoch .configuration, (authority.binding.configurationEpoch : Int)⟩,
    ⟨.epoch .policy, (authority.binding.policyEpoch : Int)⟩,
    ⟨.epoch .authority, (authority.binding.authorityEpoch : Int)⟩,
    ⟨.epoch .revocation, (authority.binding.revocationEpoch : Int)⟩]

/-- The checks a request has passed when every guard has. -/
def guardChecks : Dict Str :=
  ["authority_signature", "candidate_act_binding", "evidence_binding", "activation_binding",
    "consumption_state", "sink_binding", "topology_epoch", "configuration_epoch", "policy_epoch",
    "authority_epoch", "revocation_epoch", "nonce", "sequence", "resource_scope",
    "subscriber_scope", "purpose", "effect_parameters"].zip
  ["VALID", "MATCH", "MATCH", "MATCH", "UNUSED", "MATCH", "CURRENT", "CURRENT", "CURRENT",
    "CURRENT", "CURRENT", "FRESH", "MATCH", "MATCH", "MATCH", "MATCH", "MATCH"]
  |>.foldl (fun checks entry => checks.set (Str.ofString entry.1) (Str.ofString entry.2)) ∅

namespace NetworkFinalitySink

variable {sink : NetworkFinalitySink} {request : SinkRequest}
  {authority : NetworkFinalityAuthority} {checks : Dict Str} {past : List (Event system)}

theorem authenticate_returns {now : DateTime} :
    (sink.authenticate request now).Returns past (authority, checks) ↔
      past = [] ∧ checks = Dict.set ∅ "authority_signature" ("VALID" : Str) ∧
        Authenticated sink request authority now := by
  simp [authenticate, authenticated_iff]
  grind

theorem matchSink_returns {result : Dict Str} :
    (sink.matchSink request authority checks).Returns past result ↔
      past = [] ∧ result = checks.set "sink_binding" "MATCH" ∧
        SinkMatches sink request.candidate authority := by
  simp [matchSink, sinkMatches_iff]
  grind

private theorem matchEpoch_returns {epoch : Epoch} {bound : Nat} {reason : FailureReason}
    {message name : Str} {result : Dict Str} :
    (matchEpoch request authority epoch bound reason message name checks).Returns past result ↔
      past = [⟨.epoch epoch, (bound : Int)⟩] ∧ result = checks.set name "CURRENT" := by
  simp [matchEpoch, ask, perform]

theorem matchState_returns {result : Dict Str} :
    (matchState request authority checks).Returns past result ↔
      past = [⟨.protectedStateReference, authority.binding.protectedStateReference⟩,
        ⟨.epoch .topology, (authority.binding.topologyEpoch : Int)⟩,
        ⟨.epoch .configuration, (authority.binding.configurationEpoch : Int)⟩,
        ⟨.epoch .policy, (authority.binding.policyEpoch : Int)⟩,
        ⟨.epoch .authority, (authority.binding.authorityEpoch : Int)⟩,
        ⟨.epoch .revocation, (authority.binding.revocationEpoch : Int)⟩] ∧
      result = ((((checks.set "topology_epoch" "CURRENT").set "configuration_epoch" "CURRENT").set
        "policy_epoch" "CURRENT").set "authority_epoch" "CURRENT").set
        "revocation_epoch" "CURRENT" := by
  simp [matchState, matchEpoch_returns, ask, perform]

variable [Hashlib]

theorem matchEvidence_returns {digest : Str} {result : Dict Str} :
    (matchEvidence request authority checks).Returns past (digest, result) ↔
      ∃ evidence : EvidenceRecord,
        past = [⟨.getEvidence authority.binding.evidenceId, .ok (some evidence)⟩] ∧
        digest = authority.binding.candidateActDigest.value ∧
        result = (checks.set "candidate_act_binding" "MATCH").set "evidence_binding" "MATCH" ∧
        EvidenceMatches request.candidate authority evidence := by
  simp [matchEvidence, evidenceMatches_iff, ask, perform]
  grind

theorem matchActivation_returns {now : DateTime} {digest : Str}
    {activation : ActivationRecord} {result : Dict Str} :
    (sink.matchActivation request authority now digest checks).Returns past (activation, result) ↔
      past = [⟨.getActivation authority.authorityId, .ok (some activation)⟩,
        ⟨.isUsed authority.authorityId, .ok false⟩] ∧
      result = (checks.set "activation_binding" "MATCH").set "consumption_state" "UNUSED" ∧
      ActivationMatches sink authority now digest activation := by
  simp [matchActivation, activationMatches_iff, ask, perform]
  grind

theorem matchScope_returns {activation : ActivationRecord} {result : Dict Str} :
    (matchScope request authority activation checks).Returns past result ↔
      past = [] ∧
      result = (((((checks.set "nonce" "FRESH").set "sequence" "MATCH").set "resource_scope"
        "MATCH").set "subscriber_scope" "MATCH").set "purpose" "MATCH").set "effect_parameters"
        "MATCH" ∧
      ScopeMatches request authority activation := by
  simp [matchScope, scopeMatches_iff]
  grind

/-- The guards pass exactly the admitted requests. -/
theorem verify_returns :
    (sink.verify request).Returns past (authority, checks) ↔
      ∃ now evidence activation, Admitted sink request authority now evidence activation ∧
        past = guardEvents authority now evidence activation ∧ checks = guardChecks := by
  simp only [verify, returns_bind, pure_eq_done, returns_done, Prod.exists, Prod.mk.injEq,
    authenticate_returns, matchEvidence_returns, matchActivation_returns, matchSink_returns,
    matchState_returns, matchScope_returns]
  constructor
  · rintro ⟨now, _, _, clock, ⟨_, _, _, _, ⟨rfl, rfl, authenticated⟩, ⟨_, _, _, _,
      ⟨evidence, rfl, rfl, rfl, evidenceMatches⟩, ⟨activation, _, _, _,
      ⟨rfl, rfl, activationMatches⟩, ⟨_, _, _, ⟨rfl, rfl, sinkMatches⟩, ⟨_, _, _, ⟨rfl, rfl⟩,
      ⟨_, _, _, ⟨rfl, rfl, scopeMatches⟩, ⟨rfl, rfl, rfl⟩, rfl⟩, rfl⟩, rfl⟩, rfl⟩, rfl⟩, rfl⟩, rfl⟩
    obtain rfl := returns_ask.mp clock
    exact ⟨now, evidence, activation,
      ⟨authenticated, evidenceMatches, activationMatches, sinkMatches, scopeMatches⟩, rfl, rfl⟩
  · rintro ⟨now, evidence, activation, admitted, rfl, rfl⟩
    exact ⟨now, _, _, returns_ask.mpr rfl, ⟨authority, _, _, _,
      ⟨rfl, rfl, admitted.toAuthenticated⟩, ⟨_, _, _, _,
      ⟨evidence, rfl, rfl, rfl, admitted.toEvidenceMatches⟩, ⟨activation, _, _, _,
      ⟨rfl, rfl, admitted.toActivationMatches⟩, ⟨_, _, _,
      ⟨rfl, rfl, admitted.toSinkMatches⟩, ⟨_, _, _, ⟨rfl, rfl⟩,
      ⟨_, _, _, ⟨rfl, rfl, admitted.toScopeMatches⟩, ⟨rfl, rfl, rfl⟩, rfl⟩, rfl⟩, rfl⟩, rfl⟩,
        rfl⟩, rfl⟩, rfl⟩

/-! ### What the guards perform -/

section

variable {permitted : Op → Prop}

section

omit [Hashlib]

theorem authenticate_uses {now : DateTime} : (sink.authenticate request now).Uses permitted := by
  refine Uses.bind uses_orRefuse fun authority => Uses.bind uses_exitIf fun _ => ?_
  refine Uses.bind uses_orRaise fun payload => Uses.bind uses_exitIf fun _ => ?_
  exact Uses.bind uses_exitIf fun _ => uses_done

theorem matchSink_uses : (sink.matchSink request authority checks).Uses permitted :=
  Uses.bind uses_exitIf fun _ => Uses.bind uses_exitIf fun _ => uses_done

theorem matchEpoch_uses {epoch : Epoch} {bound : Nat} {reason : FailureReason}
    {message name : Str} (current : permitted (.epoch epoch)) :
    (matchEpoch request authority epoch bound reason message name checks).Uses permitted :=
  Uses.bind (uses_perform.mpr current) fun _ => Uses.bind uses_exitIf fun _ => uses_done

theorem matchState_uses (reference : permitted .protectedStateReference)
    (epochs : ∀ epoch, permitted (.epoch epoch)) :
    (matchState request authority checks).Uses permitted := by
  refine Uses.bind (uses_perform.mpr reference) fun _ => Uses.bind uses_exitIf fun _ => ?_
  refine Uses.bind (matchEpoch_uses (epochs .topology)) fun checks => ?_
  refine Uses.bind (matchEpoch_uses (epochs .configuration)) fun checks => ?_
  refine Uses.bind (matchEpoch_uses (epochs .policy)) fun checks => ?_
  refine Uses.bind (matchEpoch_uses (epochs .authority)) fun checks => ?_
  exact matchEpoch_uses (epochs .revocation)

end

theorem matchEvidence_uses (record : permitted (.getEvidence authority.binding.evidenceId)) :
    (matchEvidence request authority checks).Uses permitted := by
  refine Uses.bind uses_orRaise fun digest => Uses.bind uses_exitIf fun _ => ?_
  refine Uses.bind (uses_perform.mpr record) fun found => Uses.bind uses_orRaise fun found => ?_
  exact Uses.bind uses_orRefuse fun evidence => Uses.bind uses_exitIf fun _ => uses_done

theorem matchActivation_uses {now : DateTime} {digest : Str}
    (record : permitted (.getActivation authority.authorityId))
    (flag : permitted (.isUsed authority.authorityId)) :
    (sink.matchActivation request authority now digest checks).Uses permitted := by
  refine Uses.bind (uses_perform.mpr record) fun found => Uses.bind uses_orRaise fun found => ?_
  refine Uses.bind uses_orRefuse fun activation => Uses.bind uses_exitIf fun _ => ?_
  refine Uses.bind uses_exitIf fun _ => Uses.bind uses_orRaise fun digest => ?_
  refine Uses.bind uses_exitIf fun _ => Uses.bind uses_exitIf fun _ => ?_
  refine Uses.bind (uses_perform.mpr flag) fun used => Uses.bind uses_orRaise fun used => ?_
  exact Uses.bind uses_exitIf fun _ => uses_done

/-- The scope is compared without a look at the world. -/
theorem matchScope_uses {activation : ActivationRecord} :
    (matchScope request authority activation checks).Uses permitted := by
  refine Uses.bind uses_exitIf fun _ => Uses.bind uses_exitIf fun _ => ?_
  refine Uses.bind uses_exitIf fun _ => Uses.bind uses_exitIf fun _ => ?_
  refine Uses.bind uses_exitIf fun _ => Uses.bind uses_exitIf fun _ => ?_
  refine Uses.bind uses_exitIf fun _ => Uses.bind uses_exitIf fun _ => ?_
  refine Uses.bind uses_exitIf fun _ => Uses.bind uses_orRaise fun digest => ?_
  refine Uses.bind uses_exitIf fun _ => Uses.bind uses_exitIf fun _ => ?_
  exact Uses.bind uses_exitIf fun _ => uses_done

end

section

omit [Hashlib]

theorem authenticate_reads {now : DateTime} : OnlyReads (sink.authenticate request now) :=
  authenticate_uses

theorem matchSink_reads : OnlyReads (sink.matchSink request authority checks) := matchSink_uses

theorem matchEpoch_reads {epoch : Epoch} {bound : Nat} {reason : FailureReason}
    {message name : Str} :
    OnlyReads (matchEpoch request authority epoch bound reason message name checks) :=
  matchEpoch_uses rfl

theorem matchState_reads : OnlyReads (matchState request authority checks) :=
  matchState_uses rfl fun _ => rfl

end

theorem matchEvidence_reads : OnlyReads (matchEvidence request authority checks) :=
  matchEvidence_uses rfl

theorem matchActivation_reads {now : DateTime} {digest : Str} :
    OnlyReads (sink.matchActivation request authority now digest checks) :=
  matchActivation_uses rfl rfl

theorem matchScope_reads {activation : ActivationRecord} :
    OnlyReads (matchScope request authority activation checks) := matchScope_uses

/-- The guards write nothing. -/
theorem verify_reads : OnlyReads (sink.verify request) := by
  refine Uses.bind (reads_ask rfl) fun now => Uses.bind authenticate_reads fun _ => ?_
  refine Uses.bind matchEvidence_reads fun _ => Uses.bind matchActivation_reads fun _ => ?_
  refine Uses.bind matchSink_reads fun _ => Uses.bind matchState_reads fun _ => ?_
  exact Uses.bind matchScope_reads fun _ => uses_done

end NetworkFinalitySink

/-! ### How the guards end early -/

/-- A reason to end early: an exception, or a denial with one of the messages. -/
inductive RefusedWith (request : SinkRequest) (messages : List String) : Exit → Prop where
  | denied (reason : FailureReason) {message : String} (listed : message ∈ messages)
      (checks : Dict Str) (authorityId : Option Str) :
      RefusedWith request messages (.denied (deny request.requestId reason message checks authorityId))
  | raised (error : PyError) : RefusedWith request messages (.raised error)

/-- What the guards say to the requests they refuse, apart from a signature that fails. -/
def guardMessages : List String :=
  ["no finality authority supplied", "unrecognized signing key or algorithm",
    "authority is expired", "candidate act does not match authority binding",
    "protected validation evidence missing or mismatched", "sink-local activation state is absent",
    "sink-local activation state is expired", "activation state is bound to a different sink",
    "sink-local activation state does not match authority", "activation commitment mismatch",
    "single-use authority has already been consumed",
    "authority is bound to a different finality sink",
    "effectuation boundary or sink type mismatch", "protected state reference mismatch",
    "topology epoch changed after validation", "configuration epoch changed after validation",
    "policy epoch changed after validation", "authority epoch changed after validation",
    "revocation epoch changed after validation", "nonce mismatch", "sequence mismatch",
    "act type exceeds issued authority", "resource type mismatch",
    "resource IDs do not match issued scope", "subscriber scope changed", "purpose changed",
    "jurisdiction changed", "effect type differs from authority",
    "proposed effect parameters_digest is internally inconsistent",
    "effect parameters differ from Candidate Act", "effect duration exceeds authority"]

/-- What the part under the lock says. -/
def lockMessages : List String :=
  ["authority was consumed concurrently", "authority could not be consumed"]

/-- No denial of the guards is mistaken for one under the lock. -/
theorem guardMessages_disjoint : ∀ message ∈ lockMessages,
    message ∉ "authority signature verification failed" :: guardMessages := by
  decide

section

variable {request : SinkRequest} {messages : List String} {reason : FailureReason}
  {message : String} {checks : Dict Str} {authorityId : Option Str}

theorem RefusedWith.mono {wider : List String} {exit : Exit}
    (refused : RefusedWith request messages exit) (sub : messages ⊆ wider) :
    RefusedWith request wider exit := by
  cases refused with
  | denied reason listed checks authorityId => exact .denied reason (sub listed) checks authorityId
  | raised error => exact .raised error

theorem RefusedWith.message_ne {response : SinkVerifyResponse}
    (refused : RefusedWith request messages (.denied response)) (other : message ∉ messages) :
    response.message ≠ some (message : Str) := by
  cases refused with
  | denied reason listed checks authorityId =>
      intro same
      have equal := Str.ofString_inj.mp (Option.some.inj same)
      exact other (equal ▸ listed)

theorem leaves_refuses {condition : Prop} [Decidable condition] (listed : message ∈ messages) :
    (refuseIf condition request reason message checks authorityId).Leaves
      (RefusedWith request messages) :=
  leaves_refuseIf (.denied reason listed checks authorityId)

theorem leaves_missing {α : Type} {value : Option α} (listed : message ∈ messages) :
    (orRefuse value request reason message checks authorityId).Leaves
      (RefusedWith request messages) :=
  leaves_orRefuse (.denied reason listed checks authorityId)

theorem leaves_raises {α : Type} {outcome : Except PyError α} :
    (orRaise outcome : Program α).Leaves (RefusedWith request messages) :=
  leaves_orRaise .raised

end

namespace NetworkFinalitySink

variable {sink : NetworkFinalitySink} {request : SinkRequest}
  {authority : NetworkFinalityAuthority} {checks : Dict Str} {draw : Option Str}

theorem authenticate_leaves {now : DateTime} : (sink.authenticate request now).Leaves
    (RefusedWith request ("authority signature verification failed" :: guardMessages)) := by
  refine Leaves.bind (leaves_missing (by decide)) fun authority => ?_
  refine Leaves.bind (leaves_refuses (by decide)) fun _ => Leaves.bind leaves_raises fun _ => ?_
  refine Leaves.bind (leaves_refuses (by decide)) fun _ => ?_
  exact Leaves.bind (leaves_refuses (by decide)) fun _ => .done _

theorem matchSink_leaves :
    (sink.matchSink request authority checks).Leaves (RefusedWith request guardMessages) := by
  refine Leaves.bind (leaves_refuses (by decide)) fun _ => ?_
  exact Leaves.bind (leaves_refuses (by decide)) fun _ => .done _

theorem matchState_leaves :
    (matchState request authority checks).Leaves (RefusedWith request guardMessages) := by
  refine Leaves.bind leaves_perform fun _ => Leaves.bind (leaves_refuses (by decide)) fun _ => ?_
  refine Leaves.bind (matchEpoch_leaves (.denied _ (by decide) _ _)) fun checks => ?_
  refine Leaves.bind (matchEpoch_leaves (.denied _ (by decide) _ _)) fun checks => ?_
  refine Leaves.bind (matchEpoch_leaves (.denied _ (by decide) _ _)) fun checks => ?_
  refine Leaves.bind (matchEpoch_leaves (.denied _ (by decide) _ _)) fun checks => ?_
  exact matchEpoch_leaves (.denied _ (by decide) _ _)

theorem effectuate_leaves : (sink.effectuate request draw authority checks).Leaves
    (RefusedWith request lockMessages) := by
  refine Leaves.bind leaves_perform fun used => Leaves.bind leaves_raises fun used => ?_
  refine Leaves.bind (leaves_refuses (by decide)) fun _ => ?_
  refine Leaves.bind leaves_perform fun consumed => Leaves.bind leaves_raises fun consumed => ?_
  refine Leaves.bind (leaves_refuses (by decide)) fun _ => ?_
  refine Leaves.bind leaves_perform fun applied => ?_
  cases applied with
  | ok effectId => exact .done _
  | error error =>
      refine Leaves.bind leaves_perform fun undone => Leaves.bind leaves_raises fun _ => ?_
      exact .exit (.raised error)

variable [Hashlib]

theorem matchEvidence_leaves :
    (matchEvidence request authority checks).Leaves (RefusedWith request guardMessages) := by
  refine Leaves.bind leaves_raises fun digest => Leaves.bind (leaves_refuses (by decide)) fun _ => ?_
  refine Leaves.bind leaves_perform fun found => Leaves.bind leaves_raises fun found => ?_
  refine Leaves.bind (leaves_missing (by decide)) fun evidence => ?_
  exact Leaves.bind (leaves_refuses (by decide)) fun _ => .done _

theorem matchActivation_leaves {now : DateTime} {digest : Str} :
    (sink.matchActivation request authority now digest checks).Leaves
      (RefusedWith request guardMessages) := by
  refine Leaves.bind leaves_perform fun found => Leaves.bind leaves_raises fun found => ?_
  refine Leaves.bind (leaves_missing (by decide)) fun activation => ?_
  refine Leaves.bind (leaves_refuses (by decide)) fun _ => ?_
  refine Leaves.bind (leaves_refuses (by decide)) fun _ => Leaves.bind leaves_raises fun _ => ?_
  refine Leaves.bind (leaves_refuses (by decide)) fun _ => ?_
  refine Leaves.bind (leaves_refuses (by decide)) fun _ => ?_
  refine Leaves.bind leaves_perform fun used => Leaves.bind leaves_raises fun used => ?_
  exact Leaves.bind (leaves_refuses (by decide)) fun _ => .done _

theorem matchScope_leaves {activation : ActivationRecord} :
    (matchScope request authority activation checks).Leaves
      (RefusedWith request guardMessages) := by
  refine Leaves.bind (leaves_refuses (by decide)) fun _ => ?_
  refine Leaves.bind (leaves_refuses (by decide)) fun _ => ?_
  refine Leaves.bind (leaves_refuses (by decide)) fun _ => ?_
  refine Leaves.bind (leaves_refuses (by decide)) fun _ => ?_
  refine Leaves.bind (leaves_refuses (by decide)) fun _ => ?_
  refine Leaves.bind (leaves_refuses (by decide)) fun _ => ?_
  refine Leaves.bind (leaves_refuses (by decide)) fun _ => ?_
  refine Leaves.bind (leaves_refuses (by decide)) fun _ => ?_
  refine Leaves.bind (leaves_refuses (by decide)) fun _ => Leaves.bind leaves_raises fun _ => ?_
  refine Leaves.bind (leaves_refuses (by decide)) fun _ => ?_
  refine Leaves.bind (leaves_refuses (by decide)) fun _ => ?_
  exact Leaves.bind (leaves_refuses (by decide)) fun _ => .done _

/-- Behind the authentication the guards refuse with messages of their own. -/
theorem matched_leaves {now : DateTime} : (do
    let (digest, checks) ← matchEvidence request authority checks
    let (activation, checks) ← sink.matchActivation request authority now digest checks
    let checks ← sink.matchSink request authority checks
    let checks ← matchState request authority checks
    let checks ← matchScope request authority activation checks
    return (authority, checks) : Program _).Leaves (RefusedWith request guardMessages) := by
  refine Leaves.bind matchEvidence_leaves fun _ => Leaves.bind matchActivation_leaves fun _ => ?_
  refine Leaves.bind matchSink_leaves fun _ => Leaves.bind matchState_leaves fun _ => ?_
  exact Leaves.bind matchScope_leaves fun _ => .done _

/-- A guard that refuses says which one it is. -/
theorem verify_leaves : (sink.verify request).Leaves
    (RefusedWith request ("authority signature verification failed" :: guardMessages)) := by
  refine Leaves.bind leaves_perform fun now => Leaves.bind authenticate_leaves fun _ => ?_
  exact matched_leaves.mono fun _ refused => refused.mono (List.subset_cons_self _ _)

end NetworkFinalitySink

/-! ### How far a call has come -/

/-- The guards have passed on answers among the events. -/
def Cleared [Hashlib] (sink : NetworkFinalitySink) (request : SinkRequest)
    (authority : NetworkFinalityAuthority) (past : List (Event system)) : Prop :=
  ∃ now evidence activation, Admitted sink request authority now evidence activation ∧
    ∀ event ∈ guardEvents authority now evidence activation, event ∈ past

/-- The stages of a call, by what it has written and what it does next. -/
inductive SinkStage [Hashlib] (sink : NetworkFinalitySink) (request : SinkRequest)
    (draw : Option Str) (past : List (Event system)) (rest : Program SinkVerifyResponse) : Prop where
  /-- Nothing is written, and at most the consumption can be next. -/
  | guarding (written : writes past = [])
      (next : ∀ op further, rest = .call op further → op.isWrite = true →
        ∃ authority, Cleared sink request authority past ∧ op = .consume authority.authorityId)
      (unreturned : ∀ response, rest ≠ .done response)
  /-- The consumption failed. -/
  | refused (authority : NetworkFinalityAuthority) (answer : Except PyError Bool)
      (written : writes past = [⟨.consume authority.authorityId, answer⟩])
      (failed : answer ≠ .ok true) (reason : Exit) (ended : rest = .exit reason)
  /-- The authority is consumed, and the effect is next. -/
  | consumed (authority : NetworkFinalityAuthority) (cleared : Cleared sink request authority past)
      (written : writes past = [⟨.consume authority.authorityId, .ok true⟩])
      (further : Except PyError Str → Program SinkVerifyResponse)
      (next : rest = .call (.apply sink.network (NetworkFinalitySink.effectOf request authority) draw)
        further)
  /-- The effect is recorded. -/
  | applied (authority : NetworkFinalityAuthority) (effectId : Str)
      (cleared : Cleared sink request authority past)
      (written : writes past = [⟨.consume authority.authorityId, .ok true⟩,
        ⟨.apply sink.network (NetworkFinalitySink.effectOf request authority) draw, .ok effectId⟩])
      (ended : rest = .done (NetworkFinalitySink.allow request authority guardChecks effectId))
  /-- The effect failed, and the consumption is undone next. -/
  | failed (authority : NetworkFinalityAuthority) (error : PyError)
      (written : writes past = [⟨.consume authority.authorityId, .ok true⟩,
        ⟨.apply sink.network (NetworkFinalitySink.effectOf request authority) draw, .error error⟩])
      (further : Except PyError Unit → Program SinkVerifyResponse)
      (next : rest = .call (.unconsume authority.authorityId) further)
  /-- The consumption is undone. -/
  | undone (authority : NetworkFinalityAuthority) (error : PyError) (answer : Except PyError Unit)
      (written : writes past = [⟨.consume authority.authorityId, .ok true⟩,
        ⟨.apply sink.network (NetworkFinalitySink.effectOf request authority) draw, .error error⟩,
        ⟨.unconsume authority.authorityId, answer⟩])
      (reason : Exit) (ended : rest = .exit reason)

namespace NetworkFinalitySink

variable [Hashlib] {sink : NetworkFinalitySink} {request : SinkRequest}
  {authority : NetworkFinalityAuthority} {past tail : List (Event system)} {draw : Option Str}
  {rest : Program SinkVerifyResponse}

/-- The stages under the lock, after guards that have passed. -/
private theorem effectuate_stage (guarded : writes past = [])
    (cleared : ∀ later, Cleared sink request authority (past ++ later))
    (path : (sink.effectuate request draw authority guardChecks).Path tail rest) :
    SinkStage sink request draw (past ++ tail) rest := by
  simp only [effectuate, ask, perform, call_bind, done_bind] at path
  rcases path_call_iff.mp path with ⟨rfl, rfl⟩ | ⟨used, tail, rfl, afterUsed⟩
  · apply SinkStage.guarding
    · simpa using guarded
    · rintro op further next write
      cases next
      cases write
    · rintro response ⟨⟩
  -- The flag is read once more.
  have reading : writes (past ++ [⟨.isUsed authority.authorityId, used⟩]) = [] := by
    simp [guarded, writes_cons, Op.isWrite]
  clear path
  rcases used with error | used
  · obtain ⟨rfl, rfl⟩ := path_exit_iff.mp afterUsed
    exact .guarding reading (by rintro op further ⟨⟩) (by rintro response ⟨⟩)
  cases used with
  | true =>
    rw [orRaise_ok, done_bind, refuseIf, exitIf_pos rfl, exit_bind, path_exit_iff] at afterUsed
    obtain ⟨rfl, rfl⟩ := afterUsed
    exact .guarding reading (by rintro op further ⟨⟩) (by rintro response ⟨⟩)
  | false =>
    rw [orRaise_ok, done_bind, refuseIf, exitIf_neg (by simp), done_bind] at afterUsed
    rcases path_call_iff.mp afterUsed with ⟨rfl, rfl⟩ | ⟨consumed, tail, rfl, afterConsumed⟩
    · apply SinkStage.guarding reading
      · rintro op further next write
        cases next
        exact ⟨authority, cleared _, rfl⟩
      · rintro response ⟨⟩
    have consuming (answer : Except PyError Bool) (later : List (Event system)) :
        writes (past ++ ⟨.isUsed authority.authorityId, .ok false⟩ ::
          ⟨.consume authority.authorityId, answer⟩ :: later) =
        ⟨.consume authority.authorityId, answer⟩ :: writes later := by
      simp [guarded, writes_cons, Op.isWrite]
    clear afterUsed
    rcases consumed with error | consumed
    · obtain ⟨rfl, rfl⟩ := path_exit_iff.mp afterConsumed
      exact .refused authority (.error error) (consuming _ []) (by simp) _ rfl
    cases consumed with
    | false =>
      rw [orRaise_ok, done_bind, refuseIf, exitIf_pos rfl, exit_bind, path_exit_iff] at afterConsumed
      obtain ⟨rfl, rfl⟩ := afterConsumed
      exact .refused authority (.ok false) (consuming _ []) (by simp) _ rfl
    | true =>
      rw [orRaise_ok, done_bind, refuseIf, exitIf_neg (by simp), done_bind] at afterConsumed
      rcases path_call_iff.mp afterConsumed with ⟨rfl, rfl⟩ | ⟨applied, tail, rfl, afterApplied⟩
      · exact .consumed authority (cleared _) (consuming _ []) _ rfl
      clear afterConsumed
      rcases applied with error | effectId
      · rcases path_call_iff.mp afterApplied with ⟨rfl, rfl⟩ | ⟨undone, tail, rfl, afterUndone⟩
        · exact .failed authority error (consuming _ _) _ rfl
        clear afterApplied
        rcases undone with error' | _
        · obtain ⟨rfl, rfl⟩ := path_exit_iff.mp afterUndone
          exact .undone authority error _ (consuming _ _) _ rfl
        · obtain ⟨rfl, rfl⟩ := path_exit_iff.mp afterUndone
          exact .undone authority error _ (consuming _ _) _ rfl
      · obtain ⟨rfl, rfl⟩ := path_done_iff.mp afterApplied
        exact .applied authority effectId (cleared _) (consuming _ _) rfl

/-- Every point of a call is at one of the stages. -/
theorem verifyAndEffectuate_stage
    (path : (sink.verifyAndEffectuate request draw).Path past rest) :
    SinkStage sink request draw past rest := by
  rcases path_bind path with ⟨guards, verifying, rfl, unfinished⟩ | ⟨⟨authority, checks⟩, first,
    second, verified, effectuating, rfl⟩
  · have written := writes_eq_nil.mpr (verify_reads.events verifying)
    cases guards with
    | done value => exact absurd rfl (unfinished value)
    | exit reason => exact .guarding written (by rintro op further ⟨⟩) (by rintro response ⟨⟩)
    | call op further =>
        obtain ⟨reading, -⟩ := uses_call.mp (verify_reads.remains verifying)
        apply SinkStage.guarding written
        · rintro next later equal write
          cases equal
          rw [reading] at write
          cases write
        · rintro response ⟨⟩
  · obtain ⟨now, evidence, activation, admitted, rfl, rfl⟩ := verify_returns.mp verified
    apply effectuate_stage _ _ effectuating
    · exact writes_eq_nil.mpr (verify_reads.events verified)
    · intro later
      exact ⟨now, evidence, activation, admitted, fun event member => List.mem_append_left _ member⟩

/-- The writes an effectuating call may perform. -/
def Effectuates : Op → Prop
  | .consume _ | .unconsume _ | .apply .. => True
  | op => op.isWrite = false

theorem verifyAndEffectuate_uses : (sink.verifyAndEffectuate request draw).Uses Effectuates := by
  apply Uses.bind (verify_reads.mono _)
  · rintro ⟨authority, checks⟩
    refine Uses.bind (uses_perform.mpr rfl) fun used => Uses.bind uses_orRaise fun used => ?_
    refine Uses.bind uses_exitIf fun _ => Uses.bind (uses_perform.mpr trivial) fun consumed => ?_
    refine Uses.bind uses_orRaise fun consumed => Uses.bind uses_exitIf fun _ => ?_
    refine Uses.bind (uses_perform.mpr trivial) fun applied => ?_
    cases applied with
    | ok effectId => exact uses_done
    | error error =>
        refine Uses.bind (uses_perform.mpr trivial) fun undone => ?_
        exact Uses.bind uses_orRaise fun _ => uses_exit
  · intro op read
    cases op <;> first | exact read | cases read

end NetworkFinalitySink
end NetworkFinality
