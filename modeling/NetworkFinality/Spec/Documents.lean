import NetworkFinality.Model.Ped
import NetworkFinality.Spec.Encoding

/-!
# Which documents have canonical bytes

The documents that are digested or signed are dicts under literal names, so only the values
in them decide. An authority takes most of them from its candidate, and the rest from what
was drawn, from the protected state and from the signer.
-/

namespace NetworkFinality

open Python

namespace Python.Value

theorem encodable_str {text : Str} : (Value.str text).Encodable ↔ text.Encodable := by
  constructor
  · rintro ⟨⟩
    assumption
  · exact .str

theorem encodable_enum {text : Str} : (Value.enum text).Encodable ↔ text.Encodable := by
  constructor
  · rintro ⟨⟩
    assumption
  · exact .enum

theorem encodable_list {items : List Value} :
    (Value.list items).Encodable ↔ ∀ item ∈ items, item.Encodable := by
  constructor
  · rintro ⟨⟩
    assumption
  · exact .list

theorem encodable_optional {α : Type} {encode : α → Value} {value : Option α} :
    (Value.optional encode value).Encodable ↔ ∀ present ∈ value, (encode present).Encodable := by
  cases value with
  | none => exact iff_of_true .none (by rintro _ ⟨⟩)
  | some present => simp [Value.optional]

/-- The items are fields: their keys are literal names. -/
def Fields (items : List (Key × Value)) : Prop :=
  ∀ item ∈ items, ∃ name : String, item.1 = .str (Str.ofString name)

theorem fields_nil : Fields [] := by
  rintro item ⟨⟩

theorem fields_cons {name : String} {value : Value} {items : List (Key × Value)} :
    Fields (Value.field name value :: items) ↔ Fields items := by
  rw [Fields, List.forall_mem_cons, and_iff_right ⟨name, rfl⟩]
  rfl

/-- A dict of fields has canonical bytes when all values in it have. -/
theorem encodable_fields {items : List (Key × Value)} (named : Fields items) :
    (Value.dict items).Encodable ↔ ∀ item ∈ items, item.2.Encodable := by
  constructor
  · rintro ⟨⟩
    assumption
  · intro each
    refine .dict (.inr (.inl ?_)) ?_ each
    · rintro key member
      obtain ⟨item, listed, rfl⟩ := List.mem_map.mp member
      obtain ⟨name, literal⟩ := named item listed
      rw [literal, Key.isText]
    · intro item member
      obtain ⟨name, literal⟩ := named item member
      rw [literal]
      exact Str.encodable_ofString name

/-- A dict of fields, field by field. -/
theorem encodable_field {name : String} {value : Value} {items : List (Key × Value)}
    (named : Fields items) :
    (Value.dict (Value.field name value :: items)).Encodable ↔
      value.Encodable ∧ (Value.dict items).Encodable := by
  rw [encodable_fields (fields_cons.mpr named), encodable_fields named, List.forall_mem_cons]
  rfl

theorem encodable_no_fields : (Value.dict []).Encodable := by
  rw [encodable_fields fields_nil]
  rintro item ⟨⟩

/-- A number has a text when a larger one has. -/
theorem encodable_of_le {value bound : Nat} (below : value ≤ bound)
    (digits : (Value.int bound).Encodable) : (Value.int value).Encodable := by
  rcases digits with _ | _ | small
  refine .int (Nat.lt_of_le_of_lt ?_ small)
  rwa [Int.natAbs_natCast, Int.natAbs_natCast]

private theorem pow_large {digits more : Nat} (wide : digits ≤ more) : 10 ^ digits ≤ 10 ^ more :=
  Nat.pow_le_pow_right (Nat.succ_pos 9) wide

theorem encodable_of_small {value : Nat} (small : value < 10 ^ 20) :
    (Value.int value).Encodable := by
  have wide : 20 ≤ 4300 := by decide
  have large := pow_large wide
  generalize 10 ^ 20 = bound at small large
  exact .int (Nat.lt_of_lt_of_le small large)

end Python.Value

open Value in
/-- Evidence has a digest when its texts have a UTF-8 form and its counter has a text. -/
theorem EvidenceFields.body_encodable {fields : EvidenceFields} {previousDigest : Str}
    {time : DateTime} (utc : fields.committedAt = .utc time) :
    (fields.body previousDigest).Encodable ↔
      (∀ text ∈ [fields.evidenceId, fields.candidateActId, fields.decisionId, fields.decision,
        fields.protectedStateReference, previousDigest], text.Encodable) ∧
      (Value.int fields.monotonicCounter).Encodable := by
  have instant : (Value.datetime fields.committedAt).Encodable := by
    rw [utc]
    exact .datetime (AwareDateTime.toUtc_utc time)
  simp only [body, encodable_field, encodable_no_fields, fields_cons, fields_nil, encodable_str,
    instant, List.forall_mem_cons, List.not_mem_nil, false_implies, implies_true, and_true]
  grind

/-! ### Authorities -/

theorem timestamp_encodable (time : DateTime) : (timestamp time).Encodable :=
  .datetime (AwareDateTime.toUtc_utc time)

theorem HashAlgorithm.value_encodable (algorithm : HashAlgorithm) : algorithm.value.Encodable := by
  cases algorithm <;> exact Str.encodable_ofString _

theorem SinkType.value_encodable (type : SinkType) : type.value.Encodable := by
  cases type <;> exact Str.encodable_ofString _

section

open Value

theorem Digest.modelDump_encodable {digest : Digest} :
    digest.modelDump.Encodable ↔ Str.Encodable digest.value := by
  simp only [modelDump, encodable_field, encodable_no_fields, fields_cons, fields_nil,
    encodable_str, digest.algorithm.value_encodable, true_and, and_true]

/-- The scope of an authority holds nothing but values of the candidate. -/
theorem ProtectedEnforcementDomain.scopeOf_encodable {candidate : NetworkCandidateAct}
    (encodable : candidate.modelDump.Encodable) : (scopeOf candidate).modelDump.Encodable := by
  simp only [NetworkCandidateAct.modelDump, NetworkContext.modelDump, ResourceScope.modelDump,
    Purpose.modelDump, RequestedEffect.modelDump, encodable_field, encodable_no_fields, fields_cons,
    fields_nil, encodable_str, and_true, Digest.modelDump_encodable] at encodable
  simp only [AuthorityScope.modelDump, scopeOf, encodable_field, encodable_no_fields, fields_cons,
    fields_nil, encodable_str, and_true]
  grind

theorem AuthorityBinding.modelDump_encodable {binding : AuthorityBinding} :
    binding.modelDump.Encodable ↔
      (∀ text ∈ [binding.candidateActDigest.value.1, binding.evidenceId,
        binding.evidenceDigest.value.1, binding.protectedStateReference, binding.nonce.1,
        binding.finalitySinkId, binding.effectuationBoundaryId, binding.activationCommitment.1],
        text.Encodable) ∧
      (∀ epoch, (Value.int (binding.epoch epoch)).Encodable) ∧
      (Value.optional (fun sequence => .int sequence) binding.sequence).Encodable := by
  have epochs : (∀ epoch, (Value.int (binding.epoch epoch)).Encodable) ↔
      (Value.int binding.topologyEpoch).Encodable ∧
      (Value.int binding.configurationEpoch).Encodable ∧
      (Value.int binding.policyEpoch).Encodable ∧ (Value.int binding.authorityEpoch).Encodable ∧
      (Value.int binding.revocationEpoch).Encodable := by
    constructor
    · intro each
      exact ⟨each .topology, each .configuration, each .policy, each .authority, each .revocation⟩
    · rintro ⟨topology, configuration, policy, authority, revocation⟩ (_ | _ | _ | _ | _)
      all_goals assumption
  simp only [modelDump, epochs, encodable_field, encodable_no_fields, fields_cons, fields_nil,
    encodable_str, Digest.modelDump_encodable, List.forall_mem_cons, List.not_mem_nil,
    false_implies, implies_true, and_true]
  grind

theorem NetworkFinalityAuthority.modelDump_encodable {authority : NetworkFinalityAuthority} :
    authority.modelDump.Encodable ↔
      (∀ text ∈ [authority.authorityId, authority.candidateActId, authority.decisionId,
        authority.issuer.pedId, authority.issuer.keyId, authority.issuer.algorithm,
        authority.issuer.signature], text.Encodable) ∧
      authority.scope.modelDump.Encodable ∧ authority.binding.modelDump.Encodable := by
  have version : Str.Encodable ("1.0" : Str) := Str.encodable_ofString _
  have objectType : Str.Encodable ("network_finality_authority" : Str) := Str.encodable_ofString _
  simp only [modelDump, AuthorityLifetime.modelDump, AuthorityIssuer.modelDump, encodable_field,
    encodable_no_fields, fields_cons, fields_nil, encodable_str, timestamp_encodable, version,
    objectType, Value.Encodable.bool, List.forall_mem_cons, List.not_mem_nil, false_implies,
    implies_true, true_and, and_true]
  grind

end

end NetworkFinality
