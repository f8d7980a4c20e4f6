import NetworkFinality.Model.Models
import NetworkFinality.Python.JsonSchema

/-!
# The published schemas of a candidate act

`schemas/` holds two schemas of one document: the draft's, and the one of the implementation's
models. A reference to a definition is that definition. Properties stand in the order of the
models' fields.
-/

namespace NetworkFinality

open Python Schema

/-- The values of `ActType` in both schemas. -/
def actTypes : List Str :=
  ["ROUTE_CHANGE", "SESSION_MODIFICATION", "QOS_CHANGE", "SLICE_RESOURCE_ALLOCATION",
    "RAN_PARAMETER_CHANGE", "POLICY_UPDATE", "NETWORK_API_INVOCATION", "UPF_RULE_CHANGE",
    "BEAM_CHANGE", "SENSING_OPERATION", "RF_ENABLE", "SERVICE_ACTIVATION", "OTHER"]

def functionTypes : List Str :=
  ["AI_RAN_CONTROLLER", "RIC_XAPP", "RIC_RAPP", "SMF", "AMF", "PCF", "UPF_CONTROLLER",
    "ORCHESTRATOR", "NETWORK_API_CLIENT", "EDGE_AGENT", "OTHER"]

def resourceTypes : List Str :=
  ["SLICE", "CELL", "QOS_FLOW", "SESSION", "UPF_RULE", "ROUTE", "SPECTRUM_RESOURCE", "BEAM",
    "NETWORK_API", "SENSING_RESOURCE", "OTHER"]

def scopeTypes : List Str :=
  ["NONE", "SINGLE_SUBSCRIBER", "SUBSCRIBER_GROUP", "TENANT", "SLICE", "CELL_POPULATION"]

def sinkTypes : List Str :=
  ["UPF", "CONTROL_PLANE_GATEWAY", "RAN_CONTROL", "O_RAN_E2", "O_RAN_A1", "NETWORK_API_GATEWAY",
    "RF_ENABLE", "SESSION_CONTROLLER", "OTHER"]

def reversibilities : List Str := ["REVERSIBLE", "PARTIALLY_REVERSIBLE", "IRREVERSIBLE"]

def hashAlgorithms : List Str := ["SHA-256", "SHA-384", "SHA-512"]

/-! ### `implementation-network-candidate-act.schema.json` -/

namespace ImplementationSchema

def digest : Schema :=
  .closed ["value"] [("algorithm", .oneOf hashAlgorithms), ("value", .textFrom 8)]

def initiator : Schema :=
  .closed ["network_function_id", "function_type"]
    [("network_function_id", .textFrom 1),
      ("function_type", .oneOf functionTypes),
      ("agent_id", .nullable .text),
      ("model_id", .nullable .text),
      ("runtime_attestation_digest", .nullable .text)]

def networkContext : Schema :=
  .closed []
    [("plmn_id", .nullable .text),
      ("network_domain", .nullable .text),
      ("slice_id", .nullable .text),
      ("cell_ids", .listOf .text),
      ("edge_region", .nullable .text),
      ("jurisdiction", .nullable .text)]

def subscriberScope : Schema :=
  .closed [] [("scope_type", .oneOf scopeTypes), ("scope_reference", .nullable .text)]

def resourceScope : Schema :=
  .closed ["resource_type", "resource_ids"]
    [("resource_type", .oneOf resourceTypes),
      ("resource_ids", .listFrom 1 .text),
      ("subscriber_scope", subscriberScope)]

def purpose : Schema :=
  .closed ["purpose_id", "declared_purpose"]
    [("purpose_id", .textFrom 1),
      ("declared_purpose", .textFrom 1),
      ("service_intent_reference", .nullable .text),
      ("purpose_epoch", .nullable .natural)]

def requestedEffect : Schema :=
  .closed ["effect_type", "parameters_digest"]
    [("effect_type", .textFrom 1),
      ("parameters_digest", digest),
      ("duration_seconds", .nullable .natural),
      ("reversibility", .nullable (.oneOf reversibilities))]

def policyState : Schema :=
  .closed ["policy_epoch", "authority_epoch", "revocation_epoch"]
    [("policy_epoch", .natural),
      ("authority_epoch", .natural),
      ("revocation_epoch", .natural),
      ("operator_policy_profile", .nullable .text),
      ("regulatory_profile", .nullable .text)]

def freshness : Schema :=
  .closed ["nonce"]
    [("nonce", .textFrom 16),
      ("sequence", .nullable .natural),
      ("session_id", .nullable .text)]

def finalitySinkDescriptor : Schema :=
  .closed ["sink_id", "sink_type"]
    [("sink_id", .textFrom 1), ("sink_type", .oneOf sinkTypes)]

def networkCandidateAct : Schema :=
  .closed
    ["candidate_act_id", "act_type", "created_at", "expires_at", "initiator", "network_context",
      "resource_scope", "purpose", "requested_effect", "policy_state", "freshness",
      "finality_sink"]
    [("version", .constant "1.0"),
      ("object_type", .constant "network_candidate_act"),
      ("candidate_act_id", .textFrom 16),
      ("act_type", .oneOf actTypes),
      ("created_at", .text),
      ("expires_at", .text),
      ("initiator", initiator),
      ("network_context", networkContext),
      ("resource_scope", resourceScope),
      ("purpose", purpose),
      ("requested_effect", requestedEffect),
      ("policy_state", policyState),
      ("freshness", freshness),
      ("finality_sink", finalitySinkDescriptor)]

end ImplementationSchema

/-! ### `draft-network-candidate-act.schema.json` -/

namespace DraftSchema

def initiator : Schema :=
  .object ["network_function_id", "function_type"]
    [("network_function_id", .text),
      ("function_type", .oneOf functionTypes),
      ("agent_id", .text),
      ("model_id", .text),
      ("runtime_attestation_digest", .text)]

def networkContext : Schema :=
  .object []
    [("plmn_id", .text),
      ("network_domain", .text),
      ("slice_id", .text),
      ("cell_ids", .listOf .text),
      ("edge_region", .text),
      ("jurisdiction", .text)]

def subscriberScope : Schema :=
  .object [] [("scope_type", .oneOf scopeTypes), ("scope_reference", .text)]

def resourceScope : Schema :=
  .object ["resource_type", "resource_ids"]
    [("resource_type", .oneOf resourceTypes),
      ("resource_ids", .listFrom 1 .text),
      ("subscriber_scope", subscriberScope)]

def purpose : Schema :=
  .object ["purpose_id", "declared_purpose"]
    [("purpose_id", .text),
      ("declared_purpose", .text),
      ("service_intent_reference", .text),
      ("purpose_epoch", .natural)]

def parametersDigest : Schema :=
  .object ["algorithm", "value"] [("algorithm", .oneOf hashAlgorithms), ("value", .text)]

def requestedEffect : Schema :=
  .object ["effect_type", "parameters_digest"]
    [("effect_type", .text),
      ("parameters_digest", parametersDigest),
      ("duration_seconds", .natural),
      ("reversibility", .oneOf reversibilities)]

def policyState : Schema :=
  .object ["policy_epoch", "authority_epoch", "revocation_epoch"]
    [("policy_epoch", .natural),
      ("authority_epoch", .natural),
      ("revocation_epoch", .natural),
      ("operator_policy_profile", .text),
      ("regulatory_profile", .text)]

def freshness : Schema :=
  .object ["nonce"] [("nonce", .textFrom 16), ("sequence", .natural), ("session_id", .text)]

def finalitySink : Schema :=
  .object ["sink_id", "sink_type"] [("sink_id", .text), ("sink_type", .oneOf sinkTypes)]

def networkCandidateAct : Schema :=
  .closed
    ["version", "object_type", "candidate_act_id", "act_type", "created_at", "expires_at",
      "initiator", "network_context", "resource_scope", "purpose", "requested_effect",
      "policy_state", "freshness", "finality_sink"]
    [("version", .constant "1.0"),
      ("object_type", .constant "network_candidate_act"),
      ("candidate_act_id", .textFrom 16),
      ("act_type", .oneOf actTypes),
      ("created_at", .text),
      ("expires_at", .text),
      ("initiator", initiator),
      ("network_context", networkContext),
      ("resource_scope", resourceScope),
      ("purpose", purpose),
      ("requested_effect", requestedEffect),
      ("policy_state", policyState),
      ("freshness", freshness),
      ("finality_sink", finalitySink)]

end DraftSchema

end NetworkFinality
