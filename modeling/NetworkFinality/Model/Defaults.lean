import NetworkFinality.Model.Models

/-!
# Defaults of a candidate's attributes

A document of a candidate may leave attributes out for which the models have a default. `fill`
puts the defaults in, where an attribute is absent and in the objects below.
-/

namespace NetworkFinality

open Python

/-- An attribute of a model: its name, its default, and what its own values leave out. -/
structure Property where
  name : Str
  default : Option Value := none
  fill : Value → Value := id

/-- The value of the attribute in a document, or its default. -/
def Property.item (property : Property) (members : List (Key × Value)) : List (Key × Value) :=
  match members.find? fun member => member.1 = .str property.name with
  | some member => [(.str property.name, property.fill member.2)]
  | none => property.default.toList.map fun value => (.str property.name, value)

/-- The items with the defaults. Those of other names stay, for the validation to refuse. -/
def Property.filled (properties : List Property) (members : List (Key × Value)) :
    List (Key × Value) :=
  (properties.flatMap fun property => property.item members) ++
    members.filter fun member => properties.all fun property => member.1 ≠ .str property.name

/-- The document with the defaults. -/
def Python.Value.fill (properties : List Property) : Value → Value
  | .dict members => .dict (Property.filled properties members)
  | value => value

def Digest.properties : List Property :=
  [{ name := "algorithm", default := some (.str "SHA-256") },
    { name := "value" }]

def Initiator.properties : List Property :=
  [{ name := "network_function_id" },
    { name := "function_type" },
    { name := "agent_id", default := some .none },
    { name := "model_id", default := some .none },
    { name := "runtime_attestation_digest", default := some .none }]

def NetworkContext.properties : List Property :=
  [{ name := "plmn_id", default := some .none },
    { name := "network_domain", default := some .none },
    { name := "slice_id", default := some .none },
    { name := "cell_ids", default := some (.list []) },
    { name := "edge_region", default := some .none },
    { name := "jurisdiction", default := some .none }]

def SubscriberScope.properties : List Property :=
  [{ name := "scope_type", default := some (.str ScopeType.none.value) },
    { name := "scope_reference", default := some .none }]

/-- The scope of an act without one is made of defaults. -/
def ResourceScope.properties : List Property :=
  [{ name := "resource_type" },
    { name := "resource_ids" },
    { name := "subscriber_scope"
      default := some (Value.fill SubscriberScope.properties (.dict []))
      fill := Value.fill SubscriberScope.properties }]

def Purpose.properties : List Property :=
  [{ name := "purpose_id" },
    { name := "declared_purpose" },
    { name := "service_intent_reference", default := some .none },
    { name := "purpose_epoch", default := some .none }]

def RequestedEffect.properties : List Property :=
  [{ name := "effect_type" },
    { name := "parameters_digest", fill := Value.fill Digest.properties },
    { name := "duration_seconds", default := some .none },
    { name := "reversibility", default := some .none }]

def PolicyState.properties : List Property :=
  [{ name := "policy_epoch" },
    { name := "authority_epoch" },
    { name := "revocation_epoch" },
    { name := "operator_policy_profile", default := some .none },
    { name := "regulatory_profile", default := some .none }]

def Freshness.properties : List Property :=
  [{ name := "nonce" },
    { name := "sequence", default := some .none },
    { name := "session_id", default := some .none }]

def FinalitySinkDescriptor.properties : List Property :=
  [{ name := "sink_id" }, { name := "sink_type" }]

def NetworkCandidateAct.properties : List Property :=
  [{ name := "version", default := some (.str "1.0") },
    { name := "object_type", default := some (.str "network_candidate_act") },
    { name := "candidate_act_id" },
    { name := "act_type" },
    { name := "created_at" },
    { name := "expires_at" },
    { name := "initiator", fill := Value.fill Initiator.properties },
    { name := "network_context", fill := Value.fill NetworkContext.properties },
    { name := "resource_scope", fill := Value.fill ResourceScope.properties },
    { name := "purpose", fill := Value.fill Purpose.properties },
    { name := "requested_effect", fill := Value.fill RequestedEffect.properties },
    { name := "policy_state", fill := Value.fill PolicyState.properties },
    { name := "freshness", fill := Value.fill Freshness.properties },
    { name := "finality_sink", fill := Value.fill FinalitySinkDescriptor.properties }]

/-- The document of a candidate, with the defaults of all models in it. -/
def NetworkCandidateAct.withDefaults (document : Value) : Value := document.fill properties

end NetworkFinality
