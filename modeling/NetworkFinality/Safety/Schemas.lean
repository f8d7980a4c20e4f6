import NetworkFinality.Spec.Defaults

/-!
# The two published schemas

The schema of the implementation's models describes the candidates up to their validators, when
the models' defaults stand for what a document leaves out. The draft's schema has no `null`, and
requires properties that the models have defaults for.
-/

namespace NetworkFinality

open Python Schema

/-- With the models' defaults, a JSON document without floats has the canonical form of exactly one
candidate when it conforms to the schema and the models' validators accept it. -/
theorem exists_unique_candidate_iff {document : Value} (json : document.Json) :
    (∃! act : NetworkCandidateAct,
        (NetworkCandidateAct.withDefaults document).Agree act.modelDump) ↔
      ImplementationSchema.networkCandidateAct.accepts document ∧ document.Timed ∧
        (NetworkCandidateAct.withDefaults document).Scoped := by
  have completed := NetworkCandidateAct.completed
  rw [← completed.accepts json, ← NetworkCandidateAct.timed_withDefaults json]
  rw [NetworkCandidateAct.withDefaults, ← exists_candidate_iff (completed.json json)]
  constructor
  · exact ExistsUnique.exists
  · rintro ⟨act, agree⟩
    exact ⟨act, agree, fun act' agree' =>
      NetworkCandidateAct.agree.mp (agree'.symm.trans agree)⟩

namespace Reference

def scopeDocument : Value :=
  .dict [(.str "scope_type", .str "TENANT"), (.str "scope_reference", .str "tenant-A")]

def resourceDocument : Value :=
  .dict
    [(.str "resource_type", .str "SLICE"), (.str "resource_ids", .list [.str "slice-17"]),
      (.str "subscriber_scope", scopeDocument)]

/-- `examples/candidate-act.json`, with the timestamps as they are canonicalized, and without what
the defaults put in. -/
def candidateDocument : Value :=
  .dict
    [(.str "candidate_act_id", .str "net-39f8820b-reference"),
      (.str "act_type", .str "SLICE_RESOURCE_ALLOCATION"),
      (.str "created_at", .str "2026-08-26T17:50:00.000000Z"),
      (.str "expires_at", .str "2026-08-26T17:50:05.000000Z"),
      (.str "initiator", .dict
        [(.str "network_function_id", .str "ai-ran-controller-7"),
          (.str "function_type", .str "AI_RAN_CONTROLLER"), (.str "agent_id", .str "ran-agent-7"),
          (.str "model_id", .str "traffic-optimizer-v5")]),
      (.str "network_context", .dict
        [(.str "plmn_id", .str "00101"), (.str "network_domain", .str "ran-domain-2"),
          (.str "slice_id", .str "slice-17"), (.str "cell_ids", .list [.str "cell-108"]),
          (.str "jurisdiction", .str "IN")]),
      (.str "resource_scope", resourceDocument),
      (.str "purpose", .dict
        [(.str "purpose_id", .str "latency-optimization"),
          (.str "declared_purpose", .str "Maintain bounded network objective")]),
      (.str "requested_effect", .dict
        [(.str "effect_type", .str "ALLOCATE_CAPACITY"),
          (.str "parameters_digest", .dict
            [(.str "value", .str "202iqkOl0egmoF5Dlv4DYT45Fz7hKdu-Gsdgajlx9dA")]),
          (.str "duration_seconds", .int 120), (.str "reversibility", .str "REVERSIBLE")]),
      (.str "policy_state", .dict
        [(.str "policy_epoch", .int 42), (.str "authority_epoch", .int 8),
          (.str "revocation_epoch", .int 7),
          (.str "operator_policy_profile", .str "ran-autonomy-v3")]),
      (.str "freshness", .dict
        [(.str "nonce", .str "C3929177AA801C55"), (.str "sequence", .int 8821)]),
      (.str "finality_sink", .dict
        [(.str "sink_id", .str "ran-finality-sink-04"), (.str "sink_type", .str "RAN_CONTROL")])]

theorem candidateDocument_json : candidateDocument.Json := by
  have number (value : Int) : (Value.int value).Json := .int value
  simp [candidateDocument, resourceDocument, scopeDocument, Value.json_dict, Value.json_list,
    Value.json_str, Str.encodable_ofString, Str.ofString_inj, number]

theorem candidateDocument_accepted :
    ImplementationSchema.networkCandidateAct.accepts candidateDocument := by
  decide +kernel

theorem candidateDocument_timed : candidateDocument.Timed := by
  let created : DateTime := ⟨63923363400000000, by decide⟩
  let expires : DateTime := ⟨63923363405000000, by decide⟩
  have createdText : created.isoformatMicroseconds = ("2026-08-26T17:50:00.000000Z" : Str) := by
    decide
  have expiresText : expires.isoformatMicroseconds = ("2026-08-26T17:50:05.000000Z" : Str) := by
    decide
  refine ⟨created, expires, by decide, ⟨_, rfl, ?_⟩, ⟨_, rfl, ?_⟩⟩
  · simp [createdText]
  · simp [expiresText]

theorem candidateDocument_scoped :
    (NetworkCandidateAct.withDefaults candidateDocument).Scoped := by
  have json := candidateDocument_json
  have hasResource : candidateDocument.Has ("resource_scope" : Str) resourceDocument :=
    ⟨_, rfl, by simp⟩
  have hasScope : resourceDocument.Has ("subscriber_scope" : Str) scopeDocument :=
    ⟨_, rfl, by simp⟩
  have hasReference : scopeDocument.Has ("scope_reference" : Str) (.str ("tenant-A" : Str)) :=
    ⟨_, rfl, by simp⟩
  have resource : { name := "resource_scope", fill := Value.fill ResourceScope.properties } ∈
      NetworkCandidateAct.properties := by
    simp [NetworkCandidateAct.properties]
  have scope :
      { name := "subscriber_scope"
        default := some (Value.fill SubscriberScope.properties (.dict []))
        fill := Value.fill SubscriberScope.properties } ∈ ResourceScope.properties := by
    simp [ResourceScope.properties]
  have reference : { name := "scope_reference", default := some .none } ∈
      SubscriberScope.properties := by
    simp [SubscriberScope.properties]
  refine ⟨_, _,
    (json.has_fill ?_ resource).mpr (.inl ⟨_, hasResource, rfl⟩),
    ((json.part hasResource).has_fill ?_ scope).mpr (.inl ⟨_, hasScope, rfl⟩),
    .inr ⟨("tenant-A" : Str), by decide, (((json.part hasResource).part hasScope).has_fill ?_
      reference).mpr (.inl ⟨_, hasReference, rfl⟩)⟩⟩
  · simp [NetworkCandidateAct.properties, Str.ofString_inj]
  · simp [ResourceScope.properties, Str.ofString_inj]
  · simp [SubscriberScope.properties, Str.ofString_inj]

theorem exists_unique_candidate_iff_document : ∃! act : NetworkCandidateAct,
    (NetworkCandidateAct.withDefaults candidateDocument).Agree act.modelDump :=
  (exists_unique_candidate_iff candidateDocument_json).mpr
    ⟨candidateDocument_accepted, candidateDocument_timed, candidateDocument_scoped⟩

end Reference

/-- The document of a candidate conforms to the draft's schema when no optional attribute of the
candidate is absent: the dump writes `null` for it. -/
theorem draft_accepts_candidate_iff {document : Value} (json : document.Json)
    {act : NetworkCandidateAct} (agree : document.Agree act.modelDump) :
    DraftSchema.networkCandidateAct.accepts document ↔ act.modelDump.nullFree := by
  rw [← json.nullFree_agree act.plain agree]
  have accepted : ImplementationSchema.networkCandidateAct.complete.accepts document :=
    (CandidateInput.described json).mpr ⟨act.input, agree.trans act.agree_input.symm⟩
  constructor
  · intro conforms
    have excludes : excludesNull 10 [ImplementationSchema.networkCandidateAct.complete,
        DraftSchema.networkCandidateAct] := by
      decide +kernel
    refine nullFree_of_excludesNull excludes (List.forall_mem_cons.mpr ⟨accepted, ?_⟩)
    exact List.forall_mem_singleton.mpr conforms
  · intro filled
    have covered : covers 10 [ImplementationSchema.networkCandidateAct.complete]
        DraftSchema.networkCandidateAct := by
      decide +kernel
    exact accepts_of_covers covered filled (List.forall_mem_singleton.mpr accepted)

/-- With its defaults, the shipped candidate does not conform to the draft's schema. -/
theorem Reference.draft_accepts_candidate_iff_document :
    ¬DraftSchema.networkCandidateAct.accepts
      (NetworkCandidateAct.withDefaults candidateDocument) := by
  have completed := NetworkCandidateAct.completed
  have json := completed.json candidateDocument_json
  obtain ⟨act, agree⟩ := (exists_candidate_iff json).mpr
    ⟨(completed.accepts candidateDocument_json).mpr candidateDocument_accepted,
      (NetworkCandidateAct.timed_withDefaults candidateDocument_json).mpr candidateDocument_timed,
      candidateDocument_scoped⟩
  have null : ¬(NetworkCandidateAct.withDefaults candidateDocument).nullFree := by decide +kernel
  rw [NetworkCandidateAct.withDefaults, json.nullFree_agree act.plain agree] at null
  exact (draft_accepts_candidate_iff json agree).not.mpr null

/-- The properties that only the draft requires. The models have defaults for them. -/
def DraftSchema.additions : Schema :=
  .allOf
    [.check (.required ["version", "object_type"]),
      .properties
        [("requested_effect",
          .properties [("parameters_digest", .check (.required ["algorithm"]))])]]

/-- Of the documents without `null` that conform to the implementation's schema, those conform to
the draft's that have the properties with a default. -/
theorem draft_accepts_iff {document : Value} (filled : document.nullFree)
    (accepted : ImplementationSchema.networkCandidateAct.accepts document) :
    DraftSchema.networkCandidateAct.accepts document ↔ DraftSchema.additions.accepts document := by
  constructor
  · intro conforms
    have covered : covers 10 [DraftSchema.networkCandidateAct] DraftSchema.additions := by
      decide +kernel
    exact accepts_of_covers covered filled (List.forall_mem_singleton.mpr conforms)
  · intro added
    have covered : covers 10 [ImplementationSchema.networkCandidateAct, DraftSchema.additions]
        DraftSchema.networkCandidateAct := by
      decide +kernel
    refine accepts_of_covers covered filled (List.forall_mem_cons.mpr ⟨accepted, ?_⟩)
    exact List.forall_mem_singleton.mpr added

/-- Without the defaults, the shipped candidate conforms to the implementation's schema only. -/
theorem Reference.draft_accepts_iff_document :
    ImplementationSchema.networkCandidateAct.accepts candidateDocument ∧
      ¬DraftSchema.networkCandidateAct.accepts candidateDocument := by
  have filled : candidateDocument.nullFree := by
    simp [candidateDocument, resourceDocument, scopeDocument, Value.nullFree,
      Value.nullFreeMembers, Value.nullFreeValues]
  have missing : ¬DraftSchema.additions.accepts candidateDocument := by
    simp [DraftSchema.additions, candidateDocument, Str.ofString_inj]
  exact ⟨candidateDocument_accepted,
    (draft_accepts_iff filled candidateDocument_accepted).not.mpr missing⟩

end NetworkFinality
