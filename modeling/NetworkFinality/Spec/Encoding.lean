import NetworkFinality.Model.Authority
import NetworkFinality.Model.Evidence
import NetworkFinality.Spec.DigestText
import NetworkFinality.Spec.Encodable

/-!
# The texts of a canonical value

A value has canonical bytes only if every text in it has a UTF-8 form. So whatever has
been digested or signed can also be bound as an SQL parameter, and the identifiers that
a store is asked for after that never fail to be bound.
-/

namespace NetworkFinality

open Python

namespace Python

/-- The text is a string somewhere in the value. -/
inductive Value.Mentions (text : Str) : Value → Prop where
  | str : Mentions text (.str text)
  | enum : Mentions text (.enum text)
  | list {items : List Value} {value : Value} (member : value ∈ items)
      (inner : Mentions text value) : Mentions text (.list items)
  | dict {items : List (Key × Value)} {item : Key × Value} (member : item ∈ items)
      (inner : Mentions text item.2) : Mentions text (.dict items)

theorem Value.Mentions.field {text : Str} {items : List (Key × Value)} {value : Value} (name : String)
    (inner : value.Mentions text) (member : Value.field name value ∈ items) :
    (Value.dict items).Mentions text := .dict member inner

end Python

/-- Every text in a value with canonical bytes has a UTF-8 form. -/
theorem encodable_of_canonicalJsonBytes {value : Value} {bytes : Bytes}
    (canonical : canonicalJsonBytes value = .ok bytes) {text : Str} (mentions : value.Mentions text) :
    text.Encodable := by
  have encodable := canonicalJsonBytes_isOk_iff.mp ⟨bytes, canonical⟩
  clear canonical
  induction mentions with
  | str =>
      obtain ⟨⟩ := encodable
      assumption
  | enum =>
      obtain ⟨⟩ := encodable
      assumption
  | list member _ inductionHypothesis =>
      rcases encodable with _ | _ | _ | _ | _ | _ | _ | each | _
      exact inductionHypothesis (each _ member)
  | dict member _ inductionHypothesis =>
      rcases encodable with _ | _ | _ | _ | _ | _ | _ | _ | ⟨-, -, each⟩
      exact inductionHypothesis (each _ member)

theorem b64url_encodable (data : Bytes) : (b64url data).Encodable := by
  intro x member
  rw [b64url_eq] at member
  obtain ⟨value, -, rfl⟩ := List.mem_map.mp member
  exact ⟨_, rfl⟩

/-! ### The texts that stores are given -/

/-- The texts of a signed authority that stores are given. -/
theorem NetworkFinalityAuthority.encodable {authority : NetworkFinalityAuthority} {payload : Bytes}
    (signed : unsignedAuthorityPayload authority = .ok payload) :
    authority.authorityId.Encodable ∧ authority.binding.evidenceId.Encodable ∧
      Str.Encodable authority.binding.activationCommitment := by
  have texts := @encodable_of_canonicalJsonBytes _ _ signed
  have evidenceId : authority.binding.modelDump.Mentions authority.binding.evidenceId :=
    .field "evidence_id" .str (by simp)
  have commitment :
      authority.binding.modelDump.Mentions authority.binding.activationCommitment :=
    .field "activation_commitment" .str (by simp)
  exact ⟨texts (.field "authority_id" .str (by simp [withSignature])),
    texts (.field "binding" evidenceId (by simp [withSignature])),
    texts (.field "binding" commitment (by simp [withSignature]))⟩

section

variable [Hashlib]

theorem encodable_of_digestValue {value : Value} {algorithm : HashAlgorithm} {digest : Str}
    (digested : digestValue value algorithm = .ok digest) :
    digest.Encodable ∧ ∀ {text}, value.Mentions text → text.Encodable := by
  obtain ⟨bytes, canonical, rfl⟩ := digestValue_ok.mp digested
  exact ⟨b64url_encodable _, encodable_of_canonicalJsonBytes canonical⟩

/-- The texts of a digested candidate that stores are given. -/
theorem NetworkCandidateAct.encodable {candidate : NetworkCandidateAct} {digest : Str}
    (digested : candidateDigest candidate = .ok digest) :
    Str.Encodable candidate.freshness.nonce ∧ Str.Encodable candidate.finalitySink.sinkId := by
  obtain ⟨-, texts⟩ := encodable_of_digestValue digested
  have nonce : candidate.freshness.modelDump.Mentions candidate.freshness.nonce :=
    .field "nonce" .str (by simp)
  have sinkId : candidate.finalitySink.modelDump.Mentions candidate.finalitySink.sinkId :=
    .field "sink_id" .str (by simp)
  exact ⟨texts (.field "freshness" nonce (by simp)), texts (.field "finality_sink" sinkId (by simp))⟩

/-- The texts of digested evidence. -/
theorem EvidenceFields.encodable {τ : Type} [Timestamp τ] {fields : EvidenceFields τ}
    {previousDigest digest : Str} (digested : fields.bodyDigest previousDigest = .ok digest) :
    ∀ text ∈ [fields.evidenceId, fields.candidateActId, fields.decisionId, fields.decision,
      fields.protectedStateReference, previousDigest, digest], text.Encodable := by
  obtain ⟨time, -, digested⟩ := EvidenceFields.bodyDigest_ok.mp digested
  obtain ⟨encodable, texts⟩ := encodable_of_digestValue digested
  simp only [List.forall_mem_cons, List.not_mem_nil, false_implies, implies_true, and_true]
  refine ⟨texts (.field "evidence_id" .str ?_), texts (.field "candidate_act_id" .str ?_),
    texts (.field "decision_id" .str ?_), texts (.field "decision" .str ?_),
    texts (.field "protected_state_reference" .str ?_), texts (.field "previous_digest" .str ?_),
    encodable⟩ <;> simp [EvidenceFields.dated]

end

end NetworkFinality
