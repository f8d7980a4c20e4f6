import NetworkFinality.Spec.Described

/-!
# What the implementation's schema describes

Each model's schema describes the dumps of the model. The schema of a candidate knows nothing of
the model's validators: it describes the candidates before they run.
-/

namespace NetworkFinality

open Python Schema

/-! ### Enumerations -/

theorem HashAlgorithm.described :
    (oneOf hashAlgorithms).Describes fun algorithm : HashAlgorithm => .str algorithm.value :=
  describes_oneOf HashAlgorithm.value [.sha256, .sha384, .sha512] rfl
    (by rintro ⟨⟩ <;> decide) fun _ => rfl

theorem ActType.described : (oneOf actTypes).Describes fun type : ActType => .enum type.value :=
  describes_oneOf ActType.value
    [.routeChange, .sessionModification, .qosChange, .sliceResourceAllocation, .ranParameterChange,
      .policyUpdate, .networkApiInvocation, .upfRuleChange, .beamChange, .sensingOperation,
      .rfEnable, .serviceActivation, .other]
    rfl (by rintro ⟨⟩ <;> decide) fun _ => rfl

theorem FunctionType.described :
    (oneOf functionTypes).Describes fun type : FunctionType => .enum type.value :=
  describes_oneOf FunctionType.value
    [.aiRanController, .ricXapp, .ricRapp, .smf, .amf, .pcf, .upfController, .orchestrator,
      .networkApiClient, .edgeAgent, .other]
    rfl (by rintro ⟨⟩ <;> decide) fun _ => rfl

theorem ResourceType.described :
    (oneOf resourceTypes).Describes fun type : ResourceType => .enum type.value :=
  describes_oneOf ResourceType.value
    [.slice, .cell, .qosFlow, .session, .upfRule, .route, .spectrumResource, .beam, .networkApi,
      .sensingResource, .other]
    rfl (by rintro ⟨⟩ <;> decide) fun _ => rfl

theorem ScopeType.described :
    (oneOf scopeTypes).Describes fun type : ScopeType => .enum type.value :=
  describes_oneOf ScopeType.value
    [.none, .singleSubscriber, .subscriberGroup, .tenant, .slice, .cellPopulation]
    rfl (by rintro ⟨⟩ <;> decide) fun _ => rfl

theorem SinkType.described : (oneOf sinkTypes).Describes fun type : SinkType => .enum type.value :=
  describes_oneOf SinkType.value
    [.upf, .controlPlaneGateway, .ranControl, .oRanE2, .oRanA1, .networkApiGateway, .rfEnable,
      .sessionController, .other]
    rfl (by rintro ⟨⟩ <;> decide) fun _ => rfl

theorem Reversibility.described :
    (oneOf reversibilities).Describes fun kind : Reversibility => .enum kind.value :=
  describes_oneOf Reversibility.value [.reversible, .partiallyReversible, .irreversible] rfl
    (by rintro ⟨⟩ <;> decide) fun _ => rfl

/-! ### Models -/

theorem Digest.described : ImplementationSchema.digest.Describes modelDump := by
  refine describes_model
    (describesFields_cons HashAlgorithm.described <|
      describesFields_cons describes_textFrom describesFields_nil)
    (fun (algorithm, value, ()) => ⟨algorithm, value⟩)
    (fun ⟨algorithm, value⟩ => ⟨(algorithm, value, ()), rfl⟩) (fun _ => rfl) ?_ ?_
  · simp
  · simp [Str.ofString_inj]

theorem Initiator.described : ImplementationSchema.initiator.Describes modelDump := by
  refine describes_model
    (describesFields_cons describes_textFrom <|
      describesFields_cons FunctionType.described <|
      describesFields_cons (describes_nullable describes_text) <|
      describesFields_cons (describes_nullable describes_text) <|
      describesFields_cons (describes_nullable describes_text) describesFields_nil)
    (fun (function, type, agent, model, attestation, ()) =>
      ⟨function, type, agent, model, attestation⟩)
    (fun ⟨function, type, agent, model, attestation⟩ =>
      ⟨(function, type, agent, model, attestation, ()), rfl⟩) (fun _ => rfl) ?_ ?_
  · simp
  · simp [Str.ofString_inj]

theorem NetworkContext.described : ImplementationSchema.networkContext.Describes modelDump := by
  refine describes_model
    (describesFields_cons (describes_nullable describes_text) <|
      describesFields_cons (describes_nullable describes_text) <|
      describesFields_cons (describes_nullable describes_text) <|
      describesFields_cons describes_listOf_text <|
      describesFields_cons (describes_nullable describes_text) <|
      describesFields_cons (describes_nullable describes_text) describesFields_nil)
    (fun (plmn, domain, slice, cells, region, jurisdiction, ()) =>
      ⟨plmn, domain, slice, cells, region, jurisdiction⟩)
    (fun ⟨plmn, domain, slice, cells, region, jurisdiction⟩ =>
      ⟨(plmn, domain, slice, cells, region, jurisdiction, ()), rfl⟩) (fun _ => rfl) ?_ ?_
  · simp
  · simp [Str.ofString_inj]

/-- A subscriber scope before its validator: the reference may be missing. -/
structure ScopeInput where
  scopeType : ScopeType
  scopeReference : Option Str

def ScopeInput.dump (scope : ScopeInput) : Value :=
  .dict [Value.field "scope_type" (.enum scope.scopeType.value),
    Value.field "scope_reference" (.optional .str scope.scopeReference)]

theorem ScopeInput.described : ImplementationSchema.subscriberScope.Describes dump := by
  refine describes_model
    (describesFields_cons ScopeType.described <|
      describesFields_cons (describes_nullable describes_text) describesFields_nil)
    (fun (type, reference, ()) => ⟨type, reference⟩)
    (fun ⟨type, reference⟩ => ⟨(type, reference, ()), rfl⟩) (fun _ => rfl) ?_ ?_
  · simp
  · simp [Str.ofString_inj]

structure ResourceInput where
  resourceType : ResourceType
  resourceIds : ResourceIds
  subscriberScope : ScopeInput

def ResourceInput.dump (scope : ResourceInput) : Value :=
  .dict [Value.field "resource_type" (.enum scope.resourceType.value),
    Value.field "resource_ids" (.list (scope.resourceIds.1.map .str)),
    Value.field "subscriber_scope" scope.subscriberScope.dump]

theorem ResourceInput.described : ImplementationSchema.resourceScope.Describes dump := by
  refine describes_model
    (describesFields_cons ResourceType.described <|
      describesFields_cons describes_listFrom_text <|
      describesFields_cons ScopeInput.described describesFields_nil)
    (fun (type, resources, subscribers, ()) => ⟨type, resources, subscribers⟩)
    (fun ⟨type, resources, subscribers⟩ => ⟨(type, resources, subscribers, ()), rfl⟩)
    (fun _ => rfl) ?_ ?_
  · simp
  · simp [Str.ofString_inj]

theorem Purpose.described : ImplementationSchema.purpose.Describes modelDump := by
  refine describes_model
    (describesFields_cons describes_textFrom <|
      describesFields_cons describes_textFrom <|
      describesFields_cons (describes_nullable describes_text) <|
      describesFields_cons describes_nullable_natural describesFields_nil)
    (fun (purpose, declared, intent, epoch, ()) => ⟨purpose, declared, intent, epoch⟩)
    (fun ⟨purpose, declared, intent, epoch⟩ => ⟨(purpose, declared, intent, epoch, ()), rfl⟩)
    (fun _ => rfl) ?_ ?_
  · simp
  · simp [Str.ofString_inj]

theorem RequestedEffect.described : ImplementationSchema.requestedEffect.Describes modelDump := by
  refine describes_model
    (describesFields_cons describes_textFrom <|
      describesFields_cons Digest.described <|
      describesFields_cons describes_nullable_natural <|
      describesFields_cons (describes_nullable Reversibility.described) describesFields_nil)
    (fun (type, parameters, duration, reversibility, ()) =>
      ⟨type, parameters, duration, reversibility⟩)
    (fun ⟨type, parameters, duration, reversibility⟩ =>
      ⟨(type, parameters, duration, reversibility, ()), rfl⟩) (fun _ => rfl) ?_ ?_
  · simp
  · simp [Str.ofString_inj]

theorem PolicyState.described : ImplementationSchema.policyState.Describes modelDump := by
  refine describes_model
    (describesFields_cons describes_natural <|
      describesFields_cons describes_natural <|
      describesFields_cons describes_natural <|
      describesFields_cons (describes_nullable describes_text) <|
      describesFields_cons (describes_nullable describes_text) describesFields_nil)
    (fun (policy, authority, revocation, operator, regulatory, ()) =>
      ⟨policy, authority, revocation, operator, regulatory⟩)
    (fun ⟨policy, authority, revocation, operator, regulatory⟩ =>
      ⟨(policy, authority, revocation, operator, regulatory, ()), rfl⟩) (fun _ => rfl) ?_ ?_
  · simp
  · simp [Str.ofString_inj]

theorem Freshness.described : ImplementationSchema.freshness.Describes modelDump := by
  refine describes_model
    (describesFields_cons describes_textFrom <|
      describesFields_cons describes_nullable_natural <|
      describesFields_cons (describes_nullable describes_text) describesFields_nil)
    (fun (nonce, sequence, session, ()) => ⟨nonce, sequence, session⟩)
    (fun ⟨nonce, sequence, session⟩ => ⟨(nonce, sequence, session, ()), rfl⟩) (fun _ => rfl) ?_ ?_
  · simp
  · simp [Str.ofString_inj]

theorem FinalitySinkDescriptor.described :
    ImplementationSchema.finalitySinkDescriptor.Describes modelDump := by
  refine describes_model
    (describesFields_cons describes_textFrom <|
      describesFields_cons SinkType.described describesFields_nil)
    (fun (sink, type, ()) => ⟨sink, type⟩)
    (fun ⟨sink, type⟩ => ⟨(sink, type, ()), rfl⟩) (fun _ => rfl) ?_ ?_
  · simp
  · simp [Str.ofString_inj]

/-- A candidate before its validators: the timestamps are any texts, in any order. -/
structure CandidateInput where
  candidateActId : MinStr 16
  actType : ActType
  createdAt : Str
  expiresAt : Str
  initiator : Initiator
  networkContext : NetworkContext
  resourceScope : ResourceInput
  purpose : Purpose
  requestedEffect : RequestedEffect
  policyState : PolicyState
  freshness : Freshness
  finalitySink : FinalitySinkDescriptor

def CandidateInput.dump (act : CandidateInput) : Value :=
  .dict [Value.field "version" (.str ("1.0" : Str)),
    Value.field "object_type" (.str ("network_candidate_act" : Str)),
    Value.field "candidate_act_id" (.str act.candidateActId),
    Value.field "act_type" (.enum act.actType.value),
    Value.field "created_at" (.str act.createdAt),
    Value.field "expires_at" (.str act.expiresAt),
    Value.field "initiator" act.initiator.modelDump,
    Value.field "network_context" act.networkContext.modelDump,
    Value.field "resource_scope" act.resourceScope.dump,
    Value.field "purpose" act.purpose.modelDump,
    Value.field "requested_effect" act.requestedEffect.modelDump,
    Value.field "policy_state" act.policyState.modelDump,
    Value.field "freshness" act.freshness.modelDump,
    Value.field "finality_sink" act.finalitySink.modelDump]

theorem CandidateInput.described : ImplementationSchema.networkCandidateAct.Describes dump := by
  refine describes_model
    (describesFields_cons describes_constant <|
      describesFields_cons describes_constant <|
      describesFields_cons describes_textFrom <|
      describesFields_cons ActType.described <|
      describesFields_cons describes_text <|
      describesFields_cons describes_text <|
      describesFields_cons Initiator.described <|
      describesFields_cons NetworkContext.described <|
      describesFields_cons ResourceInput.described <|
      describesFields_cons Purpose.described <|
      describesFields_cons RequestedEffect.described <|
      describesFields_cons PolicyState.described <|
      describesFields_cons Freshness.described <|
      describesFields_cons FinalitySinkDescriptor.described describesFields_nil)
    (fun ((), (), act, type, created, expires, initiator, context, scope, purpose, effect, policy,
        freshness, sink, ()) =>
      ⟨act, type, created, expires, initiator, context, scope, purpose, effect, policy, freshness,
        sink⟩)
    (fun ⟨act, type, created, expires, initiator, context, scope, purpose, effect, policy,
        freshness, sink⟩ =>
      ⟨((), (), act, type, created, expires, initiator, context, scope, purpose, effect, policy,
        freshness, sink, ()), rfl⟩) (fun _ => rfl) ?_ ?_
  · simp
  · simp [Str.ofString_inj]

/-! ### Validators -/

def ScopeInput.Valid (scope : ScopeInput) : Prop :=
  scope.scopeType ≠ .none → truthy scope.scopeReference

/-- The timestamps are UTC texts in order, and a scoped act has a subscriber reference. -/
def CandidateInput.Valid (input : CandidateInput) : Prop :=
  (∃ created expires : DateTime, created < expires ∧
    input.createdAt = created.isoformatMicroseconds ∧
    input.expiresAt = expires.isoformatMicroseconds) ∧
  input.resourceScope.subscriberScope.Valid

def NetworkCandidateAct.input (act : NetworkCandidateAct) : CandidateInput where
  candidateActId := act.candidateActId
  actType := act.actType
  createdAt := act.createdAt.isoformatMicroseconds
  expiresAt := act.expiresAt.isoformatMicroseconds
  initiator := act.initiator
  networkContext := act.networkContext
  resourceScope :=
    { resourceType := act.resourceScope.resourceType
      resourceIds := act.resourceScope.resourceIds
      subscriberScope :=
        { scopeType := act.resourceScope.subscriberScope.scopeType
          scopeReference := act.resourceScope.subscriberScope.scopeReference } }
  purpose := act.purpose
  requestedEffect := act.requestedEffect
  policyState := act.policyState
  freshness := act.freshness
  finalitySink := act.finalitySink

theorem NetworkCandidateAct.exists_input {input : CandidateInput} :
    (∃ act : NetworkCandidateAct, act.input = input) ↔ input.Valid := by
  constructor
  · rintro ⟨act, rfl⟩
    exact ⟨⟨act.createdAt, act.expiresAt, act.expiryAfterCreation, rfl, rfl⟩,
      act.resourceScope.subscriberScope.referenceWhenScoped⟩
  · rintro ⟨⟨created, expires, ordered, fromCreated, fromExpires⟩, referenced⟩
    refine ⟨⟨input.candidateActId, input.actType, created, expires, input.initiator,
      input.networkContext, ⟨input.resourceScope.resourceType, input.resourceScope.resourceIds,
        ⟨input.resourceScope.subscriberScope.scopeType,
          input.resourceScope.subscriberScope.scopeReference, referenced⟩⟩,
      input.purpose, input.requestedEffect, input.policyState, input.freshness,
      input.finalitySink, ordered⟩, ?_⟩
    simp only [NetworkCandidateAct.input, ← fromCreated, ← fromExpires]

theorem agree_isoformat (time : DateTime) :
    (Value.str time.isoformatMicroseconds).Agree (timestamp time) :=
  ⟨.str time.isoformatMicroseconds, rfl, by simp [timestamp, normalize]⟩

theorem NetworkCandidateAct.agree_input (act : NetworkCandidateAct) :
    act.input.dump.Agree act.modelDump := by
  have scope : act.input.resourceScope.dump.Agree act.resourceScope.modelDump :=
    ResourceScope.agree.mpr rfl
  simp only [input] at scope
  simp only [CandidateInput.dump, modelDump]
  rw [Value.agree_record]
  · simp [Value.field, scope, input, agree_isoformat, Initiator.agree, NetworkContext.agree,
      Purpose.agree, RequestedEffect.agree, PolicyState.agree, Freshness.agree,
      FinalitySinkDescriptor.agree]
  · rfl
  · simp [Value.field]
  · simp [Value.field, Str.ofString_inj]

/-! ### Properties of a candidate's document -/

theorem ScopeInput.plain (scope : ScopeInput) : scope.dump.Plain := by
  refine .dict ?_ ?_ ?_
  · simp [Value.field]
  · simp [Value.field, Str.ofString_inj]
  · simp [Value.field]

theorem ResourceInput.plain (scope : ResourceInput) : scope.dump.Plain := by
  refine .dict ?_ ?_ ?_
  · simp [Value.field]
  · simp [Value.field, Str.ofString_inj]
  · simp [Value.field, ScopeInput.plain]

theorem CandidateInput.plain (input : CandidateInput) : input.dump.Plain := by
  refine .dict ?_ ?_ ?_
  · simp [Value.field]
  · simp [Value.field, Str.ofString_inj]
  · simp [Value.field, Initiator.plain, NetworkContext.plain, ResourceInput.plain, Purpose.plain,
      RequestedEffect.plain, PolicyState.plain, Freshness.plain, FinalitySinkDescriptor.plain]

/-- The timestamps of a document are UTC texts, and it expires after its creation. -/
def Python.Value.Timed (document : Value) : Prop :=
  ∃ created expires : DateTime, created < expires ∧
    document.Has ("created_at" : Str) (.str created.isoformatMicroseconds) ∧
    document.Has ("expires_at" : Str) (.str expires.isoformatMicroseconds)

/-- The subscriber scope of a document is `NONE`, or has a reference that is not empty. -/
def Python.Value.Scoped (document : Value) : Prop :=
  ∃ resource scope, document.Has ("resource_scope" : Str) resource ∧
    resource.Has ("subscriber_scope" : Str) scope ∧
    (scope.Has ("scope_type" : Str) (.str ("NONE" : Str)) ∨
      ∃ reference, reference ≠ [] ∧ scope.Has ("scope_reference" : Str) (.str reference))

theorem ScopeInput.valid_iff {document : Value} {scope : ScopeInput} (json : document.Json)
    (agree : document.Agree scope.dump) :
    (document.Has ("scope_type" : Str) (.str ("NONE" : Str)) ∨
      ∃ reference, reference ≠ [] ∧ document.Has ("scope_reference" : Str) (.str reference)) ↔
      scope.Valid := by
  have type : document.Has ("scope_type" : Str) (.str ScopeType.none.value) ↔
      scope.scopeType = .none := by
    have has : scope.dump.Has ("scope_type" : Str) (.enum scope.scopeType.value) :=
      ⟨_, rfl, by simp [Value.field]⟩
    have leaf : (Value.str scope.scopeType.value).Scalar := trivial
    rw [json.has_scalar scope.plain agree has leaf rfl, Value.str.injEq, ScopeType.value_inj,
      eq_comm]
  have reference (text : Str) : document.Has ("scope_reference" : Str) (.str text) ↔
      scope.scopeReference = some text := by
    have has : scope.dump.Has ("scope_reference" : Str) (.optional .str scope.scopeReference) :=
      ⟨_, rfl, by simp [Value.field]⟩
    cases given : scope.scopeReference with
    | none =>
        rw [given] at has
        have leaf : Value.none.Scalar := trivial
        rw [json.has_scalar scope.plain agree has leaf rfl]
        simp
    | some present =>
        rw [given] at has
        have leaf : (Value.str present).Scalar := trivial
        rw [json.has_scalar scope.plain agree has leaf rfl]
        simp [eq_comm]
  have named : (("NONE" : Str)) = ScopeType.none.value := rfl
  have truthy_iff : (∃ text, text ≠ [] ∧ scope.scopeReference = some text) ↔
      truthy scope.scopeReference := by
    cases scope.scopeReference <;> simp [truthy]
  rw [named, type]
  simp only [reference, Valid, truthy_iff, ne_eq, or_iff_not_imp_left]

theorem CandidateInput.valid_iff {document : Value} {input : CandidateInput} (json : document.Json)
    (agree : document.Agree input.dump) : document.Timed ∧ document.Scoped ↔ input.Valid := by
  have created (text : Str) : document.Has ("created_at" : Str) (.str text) ↔
      input.createdAt = text := by
    have has : input.dump.Has ("created_at" : Str) (.str input.createdAt) :=
      ⟨_, rfl, by simp [Value.field]⟩
    have leaf : (Value.str input.createdAt).Scalar := trivial
    rw [json.has_scalar input.plain agree has leaf rfl, Value.str.injEq, eq_comm]
  have expires (text : Str) : document.Has ("expires_at" : Str) (.str text) ↔
      input.expiresAt = text := by
    have has : input.dump.Has ("expires_at" : Str) (.str input.expiresAt) :=
      ⟨_, rfl, by simp [Value.field]⟩
    have leaf : (Value.str input.expiresAt).Scalar := trivial
    rw [json.has_scalar input.plain agree has leaf rfl, Value.str.injEq, eq_comm]
  have hasResource : input.dump.Has ("resource_scope" : Str) input.resourceScope.dump :=
    ⟨_, rfl, by simp [Value.field]⟩
  have hasScope : input.resourceScope.dump.Has ("subscriber_scope" : Str)
      input.resourceScope.subscriberScope.dump :=
    ⟨_, rfl, by simp [Value.field]⟩
  have referenced : document.Scoped ↔ input.resourceScope.subscriberScope.Valid := by
    constructor
    · rintro ⟨resource, scope, hasResource', hasScope', reference⟩
      have agreeResource := json.agree_part input.plain agree hasResource hasResource'
      have jsonResource := json.part hasResource'
      have agreeScope :=
        jsonResource.agree_part input.resourceScope.plain agreeResource hasScope hasScope'
      exact (ScopeInput.valid_iff (jsonResource.part hasScope') agreeScope).mp reference
    · intro valid
      obtain ⟨resource, hasResource', agreeResource⟩ := json.has_part input.plain agree hasResource
      have jsonResource := json.part hasResource'
      obtain ⟨scope, hasScope', agreeScope⟩ :=
        jsonResource.has_part input.resourceScope.plain agreeResource hasScope
      exact ⟨resource, scope, hasResource', hasScope',
        (ScopeInput.valid_iff (jsonResource.part hasScope') agreeScope).mpr valid⟩
  rw [Valid, referenced]
  simp only [Value.Timed, created, expires]

theorem exists_candidate_iff {document : Value} (json : document.Json) :
    (∃ act : NetworkCandidateAct, document.Agree act.modelDump) ↔
      ImplementationSchema.networkCandidateAct.complete.accepts document ∧
        document.Timed ∧ document.Scoped := by
  rw [CandidateInput.described json, ← exists_and_right]
  constructor
  · rintro ⟨act, agree⟩
    have agree' : document.Agree act.input.dump := agree.trans act.agree_input.symm
    exact ⟨act.input, agree', (CandidateInput.valid_iff json agree').mpr
      (NetworkCandidateAct.exists_input.mp ⟨act, rfl⟩)⟩
  · rintro ⟨input, agree, valid⟩
    obtain ⟨act, rfl⟩ :=
      NetworkCandidateAct.exists_input.mpr ((CandidateInput.valid_iff json agree).mp valid)
    exact ⟨act, agree.trans act.agree_input⟩

end NetworkFinality
