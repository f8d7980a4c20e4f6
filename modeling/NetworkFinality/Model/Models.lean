import NetworkFinality.Model.Canonical
import NetworkFinality.Python.Dict

/-!
# The data model

One structure for each strict model of the source. A field constraint is part of
the field's type and a model validator is a proof field, so a value that the
source's validation rejects cannot be built. `modelDump` is
`model_dump(mode="python")`: the dict that canonicalization starts from.
-/

namespace NetworkFinality

open Python

inductive ActType where
  | routeChange
  | sessionModification
  | qosChange
  | sliceResourceAllocation
  | ranParameterChange
  | policyUpdate
  | networkApiInvocation
  | upfRuleChange
  | beamChange
  | sensingOperation
  | rfEnable
  | serviceActivation
  | other
deriving DecidableEq

def ActType.value : ActType → Str
  | .routeChange => "ROUTE_CHANGE"
  | .sessionModification => "SESSION_MODIFICATION"
  | .qosChange => "QOS_CHANGE"
  | .sliceResourceAllocation => "SLICE_RESOURCE_ALLOCATION"
  | .ranParameterChange => "RAN_PARAMETER_CHANGE"
  | .policyUpdate => "POLICY_UPDATE"
  | .networkApiInvocation => "NETWORK_API_INVOCATION"
  | .upfRuleChange => "UPF_RULE_CHANGE"
  | .beamChange => "BEAM_CHANGE"
  | .sensingOperation => "SENSING_OPERATION"
  | .rfEnable => "RF_ENABLE"
  | .serviceActivation => "SERVICE_ACTIVATION"
  | .other => "OTHER"

inductive FunctionType where
  | aiRanController
  | ricXapp
  | ricRapp
  | smf
  | amf
  | pcf
  | upfController
  | orchestrator
  | networkApiClient
  | edgeAgent
  | other
deriving DecidableEq

def FunctionType.value : FunctionType → Str
  | .aiRanController => "AI_RAN_CONTROLLER"
  | .ricXapp => "RIC_XAPP"
  | .ricRapp => "RIC_RAPP"
  | .smf => "SMF"
  | .amf => "AMF"
  | .pcf => "PCF"
  | .upfController => "UPF_CONTROLLER"
  | .orchestrator => "ORCHESTRATOR"
  | .networkApiClient => "NETWORK_API_CLIENT"
  | .edgeAgent => "EDGE_AGENT"
  | .other => "OTHER"

inductive ResourceType where
  | slice
  | cell
  | qosFlow
  | session
  | upfRule
  | route
  | spectrumResource
  | beam
  | networkApi
  | sensingResource
  | other
deriving DecidableEq

def ResourceType.value : ResourceType → Str
  | .slice => "SLICE"
  | .cell => "CELL"
  | .qosFlow => "QOS_FLOW"
  | .session => "SESSION"
  | .upfRule => "UPF_RULE"
  | .route => "ROUTE"
  | .spectrumResource => "SPECTRUM_RESOURCE"
  | .beam => "BEAM"
  | .networkApi => "NETWORK_API"
  | .sensingResource => "SENSING_RESOURCE"
  | .other => "OTHER"

inductive ScopeType where
  | none
  | singleSubscriber
  | subscriberGroup
  | tenant
  | slice
  | cellPopulation
deriving DecidableEq

def ScopeType.value : ScopeType → Str
  | .none => "NONE"
  | .singleSubscriber => "SINGLE_SUBSCRIBER"
  | .subscriberGroup => "SUBSCRIBER_GROUP"
  | .tenant => "TENANT"
  | .slice => "SLICE"
  | .cellPopulation => "CELL_POPULATION"

inductive SinkType where
  | upf
  | controlPlaneGateway
  | ranControl
  | oRanE2
  | oRanA1
  | networkApiGateway
  | rfEnable
  | sessionController
  | other
deriving DecidableEq

def SinkType.value : SinkType → Str
  | .upf => "UPF"
  | .controlPlaneGateway => "CONTROL_PLANE_GATEWAY"
  | .ranControl => "RAN_CONTROL"
  | .oRanE2 => "O_RAN_E2"
  | .oRanA1 => "O_RAN_A1"
  | .networkApiGateway => "NETWORK_API_GATEWAY"
  | .rfEnable => "RF_ENABLE"
  | .sessionController => "SESSION_CONTROLLER"
  | .other => "OTHER"

inductive Reversibility where
  | reversible
  | partiallyReversible
  | irreversible
deriving DecidableEq

def Reversibility.value : Reversibility → Str
  | .reversible => "REVERSIBLE"
  | .partiallyReversible => "PARTIALLY_REVERSIBLE"
  | .irreversible => "IRREVERSIBLE"

inductive Decision where
  | allow
  | deny
deriving DecidableEq

def Decision.value : Decision → Str
  | .allow => "ALLOW"
  | .deny => "DENY"

structure Digest where
  algorithm : HashAlgorithm
  value : MinStr 8
deriving DecidableEq

def Digest.modelDump (digest : Digest) : Value :=
  .dict [Value.field "algorithm" (.str digest.algorithm.value), Value.field "value" (.str digest.value)]

structure Initiator where
  networkFunctionId : MinStr 1
  functionType : FunctionType
  agentId : Option Str
  modelId : Option Str
  runtimeAttestationDigest : Option Str
deriving DecidableEq

def Initiator.modelDump (initiator : Initiator) : Value :=
  .dict [Value.field "network_function_id" (.str initiator.networkFunctionId),
    Value.field "function_type" (.enum initiator.functionType.value),
    Value.field "agent_id" (.optional .str initiator.agentId),
    Value.field "model_id" (.optional .str initiator.modelId),
    Value.field "runtime_attestation_digest" (.optional .str initiator.runtimeAttestationDigest)]

structure NetworkContext where
  plmnId : Option Str
  networkDomain : Option Str
  sliceId : Option Str
  cellIds : List Str
  edgeRegion : Option Str
  jurisdiction : Option Str
deriving DecidableEq

def NetworkContext.modelDump (context : NetworkContext) : Value :=
  .dict [Value.field "plmn_id" (.optional .str context.plmnId),
    Value.field "network_domain" (.optional .str context.networkDomain),
    Value.field "slice_id" (.optional .str context.sliceId),
    Value.field "cell_ids" (.list (context.cellIds.map .str)),
    Value.field "edge_region" (.optional .str context.edgeRegion),
    Value.field "jurisdiction" (.optional .str context.jurisdiction)]

structure SubscriberScope where
  scopeType : ScopeType
  scopeReference : Option Str
  referenceWhenScoped : scopeType ≠ .none → truthy scopeReference
deriving DecidableEq

def SubscriberScope.modelDump (scope : SubscriberScope) : Value :=
  .dict [Value.field "scope_type" (.enum scope.scopeType.value),
    Value.field "scope_reference" (.optional .str scope.scopeReference)]

/-- A list field with `min_length=1`. -/
abbrev ResourceIds := {ids : List Str // 0 < ids.length}

structure ResourceScope where
  resourceType : ResourceType
  resourceIds : ResourceIds
  subscriberScope : SubscriberScope
deriving DecidableEq

def ResourceScope.modelDump (scope : ResourceScope) : Value :=
  .dict [Value.field "resource_type" (.enum scope.resourceType.value),
    Value.field "resource_ids" (.list (scope.resourceIds.1.map .str)),
    Value.field "subscriber_scope" scope.subscriberScope.modelDump]

structure Purpose where
  purposeId : MinStr 1
  declaredPurpose : MinStr 1
  serviceIntentReference : Option Str
  purposeEpoch : Option Nat
deriving DecidableEq

def Purpose.modelDump (purpose : Purpose) : Value :=
  .dict [Value.field "purpose_id" (.str purpose.purposeId),
    Value.field "declared_purpose" (.str purpose.declaredPurpose),
    Value.field "service_intent_reference" (.optional .str purpose.serviceIntentReference),
    Value.field "purpose_epoch" (.optional (fun epoch => .int epoch) purpose.purposeEpoch)]

structure RequestedEffect where
  effectType : MinStr 1
  parametersDigest : Digest
  durationSeconds : Option Nat
  reversibility : Option Reversibility
deriving DecidableEq

def RequestedEffect.modelDump (effect : RequestedEffect) : Value :=
  .dict [Value.field "effect_type" (.str effect.effectType),
    Value.field "parameters_digest" effect.parametersDigest.modelDump,
    Value.field "duration_seconds" (.optional (fun seconds => .int seconds) effect.durationSeconds),
    Value.field "reversibility" (.optional (fun kind => .enum kind.value) effect.reversibility)]

structure PolicyState where
  policyEpoch : Nat
  authorityEpoch : Nat
  revocationEpoch : Nat
  operatorPolicyProfile : Option Str
  regulatoryProfile : Option Str
deriving DecidableEq

def PolicyState.modelDump (state : PolicyState) : Value :=
  .dict [Value.field "policy_epoch" (.int state.policyEpoch),
    Value.field "authority_epoch" (.int state.authorityEpoch),
    Value.field "revocation_epoch" (.int state.revocationEpoch),
    Value.field "operator_policy_profile" (.optional .str state.operatorPolicyProfile),
    Value.field "regulatory_profile" (.optional .str state.regulatoryProfile)]

structure Freshness where
  nonce : MinStr 16
  sequence : Option Nat
  sessionId : Option Str
deriving DecidableEq

def Freshness.modelDump (freshness : Freshness) : Value :=
  .dict [Value.field "nonce" (.str freshness.nonce),
    Value.field "sequence" (.optional (fun sequence => .int sequence) freshness.sequence),
    Value.field "session_id" (.optional .str freshness.sessionId)]

structure FinalitySinkDescriptor where
  sinkId : MinStr 1
  sinkType : SinkType
deriving DecidableEq

def FinalitySinkDescriptor.modelDump (sink : FinalitySinkDescriptor) : Value :=
  .dict [Value.field "sink_id" (.str sink.sinkId), Value.field "sink_type" (.enum sink.sinkType.value)]

/-- A timestamp field: the validator converts it to UTC. -/
def timestamp (time : DateTime) : Value := .datetime (.utc time)

structure NetworkCandidateAct where
  candidateActId : MinStr 16
  actType : ActType
  createdAt : DateTime
  expiresAt : DateTime
  initiator : Initiator
  networkContext : NetworkContext
  resourceScope : ResourceScope
  purpose : Purpose
  requestedEffect : RequestedEffect
  policyState : PolicyState
  freshness : Freshness
  finalitySink : FinalitySinkDescriptor
  expiryAfterCreation : createdAt < expiresAt
deriving DecidableEq

def NetworkCandidateAct.modelDump (act : NetworkCandidateAct) : Value :=
  .dict [Value.field "version" (.str ("1.0" : Str)),
    Value.field "object_type" (.str ("network_candidate_act" : Str)),
    Value.field "candidate_act_id" (.str act.candidateActId),
    Value.field "act_type" (.enum act.actType.value),
    Value.field "created_at" (timestamp act.createdAt),
    Value.field "expires_at" (timestamp act.expiresAt),
    Value.field "initiator" act.initiator.modelDump,
    Value.field "network_context" act.networkContext.modelDump,
    Value.field "resource_scope" act.resourceScope.modelDump,
    Value.field "purpose" act.purpose.modelDump,
    Value.field "requested_effect" act.requestedEffect.modelDump,
    Value.field "policy_state" act.policyState.modelDump,
    Value.field "freshness" act.freshness.modelDump,
    Value.field "finality_sink" act.finalitySink.modelDump]

structure ValidatedPredicates where
  initiatorAttested : Bool
  resourceScopeValid : Bool
  subscriberScopeValid : Bool
  purposeValid : Bool
  requestedEffectValid : Bool
  operatorPolicyValid : Bool
  regulatoryPolicyValid : Bool
  networkStateValid : Bool
  policyEpochValid : Bool
  revocationStateValid : Bool
  freshnessValid : Bool
  sinkBindingValid : Bool
deriving DecidableEq

def ValidatedPredicates.allTrue (predicates : ValidatedPredicates) : Bool :=
  [predicates.initiatorAttested, predicates.resourceScopeValid, predicates.subscriberScopeValid,
    predicates.purposeValid, predicates.requestedEffectValid, predicates.operatorPolicyValid,
    predicates.regulatoryPolicyValid, predicates.networkStateValid, predicates.policyEpochValid,
    predicates.revocationStateValid, predicates.freshnessValid, predicates.sinkBindingValid].all id

structure NetworkStateSnapshot where
  topologyEpoch : Nat
  configurationEpoch : Nat
  sliceState : Str
  congestionState : Str
deriving DecidableEq

/-- The counter is assigned once more after validation, so it is a plain integer. -/
structure ProtectedStateSnapshot where
  stateReference : MinStr 1
  monotonicCounter : Int
deriving DecidableEq

structure NetworkValidationDecision where
  decisionId : Str
  candidateActId : Str
  decision : Decision
  validatedPredicates : ValidatedPredicates
  networkState : NetworkStateSnapshot
  protectedState : ProtectedStateSnapshot
  evidenceId : Option Str
  denialCode : Option Str
deriving DecidableEq

structure AuthorityScope where
  actType : ActType
  resourceType : ResourceType
  resourceIds : ResourceIds
  subscriberScope : SubscriberScope
  permittedEffectType : Str
  parametersDigest : Str
  durationSecondsMax : Option Nat
  networkDomain : Option Str
  jurisdiction : Option Str
  purposeId : Str
deriving DecidableEq

def AuthorityScope.modelDump (scope : AuthorityScope) : Value :=
  .dict [Value.field "act_type" (.enum scope.actType.value),
    Value.field "resource_type" (.enum scope.resourceType.value),
    Value.field "resource_ids" (.list (scope.resourceIds.1.map .str)),
    Value.field "subscriber_scope" scope.subscriberScope.modelDump,
    Value.field "permitted_effect_type" (.str scope.permittedEffectType),
    Value.field "parameters_digest" (.str scope.parametersDigest),
    Value.field "duration_seconds_max" (.optional (fun seconds => .int seconds) scope.durationSecondsMax),
    Value.field "network_domain" (.optional .str scope.networkDomain),
    Value.field "jurisdiction" (.optional .str scope.jurisdiction),
    Value.field "purpose_id" (.str scope.purposeId)]

structure AuthorityBinding where
  candidateActDigest : Digest
  evidenceId : Str
  evidenceDigest : Digest
  protectedStateReference : Str
  topologyEpoch : Nat
  configurationEpoch : Nat
  policyEpoch : Nat
  authorityEpoch : Nat
  revocationEpoch : Nat
  nonce : MinStr 16
  sequence : Option Nat
  finalitySinkId : Str
  effectuationBoundaryId : Str
  activationCommitment : MinStr 16
deriving DecidableEq

def AuthorityBinding.modelDump (binding : AuthorityBinding) : Value :=
  .dict [Value.field "candidate_act_digest" binding.candidateActDigest.modelDump,
    Value.field "evidence_id" (.str binding.evidenceId),
    Value.field "evidence_digest" binding.evidenceDigest.modelDump,
    Value.field "protected_state_reference" (.str binding.protectedStateReference),
    Value.field "topology_epoch" (.int binding.topologyEpoch),
    Value.field "configuration_epoch" (.int binding.configurationEpoch),
    Value.field "policy_epoch" (.int binding.policyEpoch),
    Value.field "authority_epoch" (.int binding.authorityEpoch),
    Value.field "revocation_epoch" (.int binding.revocationEpoch),
    Value.field "nonce" (.str binding.nonce),
    Value.field "sequence" (.optional (fun sequence => .int sequence) binding.sequence),
    Value.field "finality_sink_id" (.str binding.finalitySinkId),
    Value.field "effectuation_boundary_id" (.str binding.effectuationBoundaryId),
    Value.field "activation_commitment" (.str binding.activationCommitment)]

structure AuthorityLifetime where
  issuedAt : DateTime
  expiresAt : DateTime
  singleUse : Bool
deriving DecidableEq

def AuthorityLifetime.modelDump (lifetime : AuthorityLifetime) : Value :=
  .dict [Value.field "issued_at" (timestamp lifetime.issuedAt),
    Value.field "expires_at" (timestamp lifetime.expiresAt),
    Value.field "single_use" (.bool lifetime.singleUse)]

structure AuthorityIssuer where
  pedId : Str
  keyId : Str
  algorithm : Str
  signature : Str
deriving DecidableEq

def AuthorityIssuer.modelDump (issuer : AuthorityIssuer) : Value :=
  .dict [Value.field "ped_id" (.str issuer.pedId),
    Value.field "key_id" (.str issuer.keyId),
    Value.field "algorithm" (.str issuer.algorithm),
    Value.field "signature" (.str issuer.signature)]

structure NetworkFinalityAuthority where
  authorityId : Str
  candidateActId : Str
  decisionId : Str
  scope : AuthorityScope
  binding : AuthorityBinding
  lifetime : AuthorityLifetime
  issuer : AuthorityIssuer
deriving DecidableEq

def NetworkFinalityAuthority.modelDump (authority : NetworkFinalityAuthority) : Value :=
  .dict [Value.field "version" (.str ("1.0" : Str)),
    Value.field "object_type" (.str ("network_finality_authority" : Str)),
    Value.field "authority_id" (.str authority.authorityId),
    Value.field "candidate_act_id" (.str authority.candidateActId),
    Value.field "decision_id" (.str authority.decisionId),
    Value.field "scope" authority.scope.modelDump,
    Value.field "binding" authority.binding.modelDump,
    Value.field "lifetime" authority.lifetime.modelDump,
    Value.field "issuer" authority.issuer.modelDump]

structure ProposedEffect where
  effectType : Str
  resourceType : ResourceType
  resourceIds : ResourceIds
  parameters : List (Str × Value)
  parametersDigest : Digest
  durationSeconds : Option Nat

/-- The `parameters` dict as a value. -/
def ProposedEffect.parametersValue (effect : ProposedEffect) : Value :=
  .dict (effect.parameters.map fun (name, value) => (.str name, value))

structure SinkVerifyResponse where
  requestId : Str
  decision : Decision
  code : Str
  verification : Dict Str
  authorityId : Option Str
  consumed : Bool
  effectuationPermitted : Bool
  networkEffectId : Option Str
  message : Option Str
deriving DecidableEq

end NetworkFinality
