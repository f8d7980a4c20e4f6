import NetworkFinality.Model.Engine
import NetworkFinality.Spec.Acceptance
import NetworkFinality.Spec.Documents

/-!
# Candidates of the reference system

What `makeCandidate` makes of its arguments has canonical bytes, and is accepted by a policy
whose lists admit them, for as long as it is neither early nor stale.
-/

namespace NetworkFinality

open Python Semantics

/-! ### Canonical bytes -/

theorem ActType.value_encodable (type : ActType) : type.value.Encodable := by
  cases type <;> exact Str.encodable_ofString _

theorem FunctionType.value_encodable (type : FunctionType) : type.value.Encodable := by
  cases type <;> exact Str.encodable_ofString _

theorem ResourceType.value_encodable (type : ResourceType) : type.value.Encodable := by
  cases type <;> exact Str.encodable_ofString _

theorem ScopeType.value_encodable (type : ScopeType) : type.value.Encodable := by
  cases type <;> exact Str.encodable_ofString _

theorem Reversibility.value_encodable (kind : Reversibility) : kind.value.Encodable := by
  cases kind <;> exact Str.encodable_ofString _

/-- The texts of the arguments have a UTF-8 form, and their numbers a text. -/
structure CandidateArguments.Encodable (arguments : CandidateArguments) : Prop where
  texts : ∀ text ∈ [arguments.candidateActId.1, arguments.nonce.1, arguments.purposeId.1,
    arguments.effectType.1, arguments.jurisdiction, arguments.sinkId.1], text.Encodable
  resourceIds : ∀ text ∈ arguments.resourceIds, text.Encodable
  reference : ∀ text ∈ arguments.subscriberScope.scopeReference, text.Encodable
  attestation : ∀ text ∈ arguments.attestationDigest, text.Encodable
  numbers : ∀ number ∈ [arguments.sequence, arguments.policyEpoch, arguments.authorityEpoch,
    arguments.revocationEpoch], (Value.int number).Encodable
  duration : ∀ seconds ∈ arguments.durationSeconds, (Value.int seconds).Encodable

open Value in
/-- A candidate has canonical bytes when its arguments have. -/
theorem makeCandidate_encodable [Hashlib] {arguments : CandidateArguments} {now : DateTime}
    {candidate : NetworkCandidateAct} (made : makeCandidate arguments now = .ok candidate)
    (encodable : arguments.Encodable) : candidate.modelDump.Encodable := by
  obtain ⟨expiresAt, -, made⟩ := bind_eq_ok.mp made
  obtain ⟨digest, digested, made⟩ := bind_eq_ok.mp made
  split at made
  · obtain rfl := pure_eq_ok.mp made
    have value : Str.Encodable digest.value := by
      obtain ⟨text, hashed, bounded⟩ := bind_eq_ok.mp digested
      obtain ⟨value, valid, bounded⟩ := bind_eq_ok.mp bounded
      obtain rfl := pure_eq_ok.mp bounded
      rw [MinStr.validate_ok valid]
      exact (encodable_of_digestValue hashed).1
    have resourceIds : ∀ text ∈ (resourceIdsOr arguments.resourceIds
        ⟨["slice-17"], by decide⟩).1, text.Encodable := by
      unfold resourceIdsOr
      split
      · exact encodable.resourceIds
      · rw [List.forall_mem_singleton]
        exact Str.encodable_ofString _
    obtain ⟨texts, -, reference, attestation, numbers, duration⟩ := encodable
    simp only [List.forall_mem_cons] at texts numbers
    simp only [NetworkCandidateAct.modelDump, Initiator.modelDump, NetworkContext.modelDump,
      ResourceScope.modelDump, SubscriberScope.modelDump, Purpose.modelDump,
      RequestedEffect.modelDump, PolicyState.modelDump, Freshness.modelDump,
      FinalitySinkDescriptor.modelDump, encodable_field, encodable_no_fields, fields_cons,
      fields_nil, Digest.modelDump_encodable, encodable_str, encodable_enum, encodable_list,
      encodable_optional, List.forall_mem_map]
    obtain ⟨actId, nonce, purposeId, effectType, jurisdiction, sinkId, -⟩ := texts
    obtain ⟨sequence, policyEpoch, authorityEpoch, revocationEpoch, -⟩ := numbers
    have seconds : ∀ present : Int,
        (arguments.durationSeconds.bind fun seconds => some (seconds : Int)) = some present →
          (int present).Encodable := by
      intro present given
      obtain ⟨seconds, requested, same⟩ := Option.bind_eq_some_iff.mp given
      obtain rfl := Option.some.inj same
      exact duration seconds requested
    simpa [Str.encodable_ofString, ActType.value_encodable, FunctionType.value_encodable,
      ResourceType.value_encodable, ScopeType.value_encodable, SinkType.value_encodable,
      Reversibility.value_encodable, timestamp_encodable, value, actId, nonce, purposeId,
      effectType, jurisdiction, sinkId, sequence, policyEpoch, authorityEpoch, revocationEpoch]
      using And.intro attestation (And.intro (And.intro resourceIds reference) seconds)
  · cases made

theorem exists_parametersDigest [Hashlib] {parameters : List (Str × Value)}
    (encodable : (Value.dict (parameters.map fun (name, value) => (.str name, value))).Encodable) :
    ∃ digest, parametersDigest parameters = .ok digest := by
  obtain ⟨text, digested⟩ : ∃ text, digestValue _ .sha256 = .ok text :=
    digestValue_isOk_iff.mpr encodable
  have long : 8 ≤ text.length := by
    rw [length_digestValue digested]
    decide
  have valid : 8 ≤ text.length ∧ text.Encodable := ⟨long, (encodable_of_digestValue digested).1⟩
  exact ⟨_, bind_eq_ok.mpr ⟨text, digested, bind_eq_ok.mpr ⟨⟨text, valid⟩, dif_pos valid, rfl⟩⟩⟩

/-- The parameters that stand in for absent ones have a digest. -/
theorem exists_standardDigest [Hashlib] :
    ∃ digest, parametersDigest (parametersOr [] (some 120)) = .ok digest := by
  have small {number : Nat} (small : number < 1000) : (Value.int number).Encodable :=
    Value.encodable_of_small (small.trans (by decide))
  refine exists_parametersDigest (Value.encodable_field (Value.fields_cons.mpr Value.fields_nil)
    |>.mpr ⟨?_, (Value.encodable_field Value.fields_nil).mpr ⟨?_, Value.encodable_no_fields⟩⟩)
  · exact small (by decide)
  · exact small (by decide)

/-- A candidate is made when it lives, its expiry is a date and its parameters have a digest. -/
theorem makeCandidate_isOk_iff [Hashlib] {arguments : CandidateArguments} {created : DateTime}
    (parameters : ∃ digest, parametersDigest
      (parametersOr arguments.parameters arguments.durationSeconds) = .ok digest)
    (lives : 0 < arguments.ttl) :
    (∃ candidate, makeCandidate arguments created = .ok candidate) ↔
      (created.micros : Int) + arguments.ttl < maxMicros := by
  obtain ⟨digest, digested⟩ := parameters
  constructor
  · rintro ⟨candidate, made⟩
    obtain ⟨expiresAt, added, -⟩ := bind_eq_ok.mp made
    have expiry := DateTime.add_ok added
    have bound := expiresAt.inRange
    omega
  · intro dated
    obtain ⟨expiresAt, added⟩ : ∃ expiresAt, created.add arguments.ttl = .ok expiresAt := by
      refine ⟨_, dif_pos ⟨by omega, dated⟩⟩
    have later : created < expiresAt := by
      rw [DateTime.lt_iff]
      have expiry := DateTime.add_ok added
      omega
    exact ⟨_, bind_eq_ok.mpr ⟨expiresAt, added, bind_eq_ok.mpr ⟨digest, digested, dif_pos later⟩⟩⟩

/-- The freshness, the duration and the expiry of a candidate are those of its arguments. -/
theorem makeCandidate_fields [Hashlib] {arguments : CandidateArguments} {created : DateTime}
    {candidate : NetworkCandidateAct} (made : makeCandidate arguments created = .ok candidate) :
    candidate.freshness.nonce = arguments.nonce ∧
      candidate.requestedEffect.durationSeconds = arguments.durationSeconds ∧
      (candidate.expiresAt.micros : Int) = created.micros + arguments.ttl := by
  obtain ⟨expiresAt, added, made⟩ := bind_eq_ok.mp made
  obtain ⟨digest, -, made⟩ := bind_eq_ok.mp made
  split at made
  · obtain rfl := pure_eq_ok.mp made
    exact ⟨rfl, rfl, DateTime.add_ok added⟩
  · cases made

/-! ### Acceptance -/

/-- The policy and the protected state admit what the arguments ask for. -/
structure CandidateArguments.Admitted (config : PolicyConfig) (state : ProtectedNetworkState)
    (arguments : CandidateArguments) : Prop where
  policyEpoch : (arguments.policyEpoch : Int) = state.policyEpoch
  authorityEpoch : (arguments.authorityEpoch : Int) = state.authorityEpoch
  revocationEpoch : (arguments.revocationEpoch : Int) = state.revocationEpoch
  sinkId : arguments.sinkId.1 ∈ state.allowedSinkIds
  jurisdictionPresent : truthy (some arguments.jurisdiction) = true
  jurisdiction : Admits state.allowedJurisdictions (some arguments.jurisdiction)
  purpose : Admits state.allowedPurposes (some arguments.purposeId.1)
  attestation : config.requireAttestation = true ∨ state.requireAttestation = true →
    truthy arguments.attestationDigest = true
  actType : config.allowedActTypes = ∅ ∨ arguments.actType.value ∈ config.allowedActTypes
  duration : ∀ duration, arguments.durationSeconds = some duration →
    (duration : Int) ≤ config.maxEffectDurationSeconds

/-- An admitted candidate is accepted from its creation on until it expires or is too old. -/
theorem makeCandidate_accepts_until [Hashlib] {arguments : CandidateArguments} {created clock : DateTime}
    {candidate : NetworkCandidateAct} {config : PolicyConfig} {state : ProtectedNetworkState}
    (made : makeCandidate arguments created = .ok candidate)
    (admitted : arguments.Admitted config state) :
    config.Accepts state candidate clock ↔ created.micros ≤ clock.micros ∧
      (clock.micros : Int) < created.micros + arguments.ttl ∧
      (clock.micros : Int) ≤ created.micros + config.maxCandidateAge := by
  obtain ⟨expiresAt, added, made⟩ := bind_eq_ok.mp made
  obtain ⟨digest, -, made⟩ := bind_eq_ok.mp made
  split at made
  · obtain rfl := pure_eq_ok.mp made
    have expiry := DateTime.add_ok added
    constructor
    · intro accepts
      have early : ¬ clock < created := accepts.created
      have late : ¬ expiresAt ≤ clock := accepts.unexpired
      have age : clock.sub created ≤ config.maxCandidateAge := accepts.age
      rw [DateTime.lt_iff] at early
      rw [DateTime.le_iff] at late
      rw [DateTime.sub] at age
      omega
    · rintro ⟨early, late, age⟩
      refine ⟨?_, ?_, ?_, admitted.policyEpoch, admitted.authorityEpoch, admitted.revocationEpoch,
        admitted.sinkId, admitted.jurisdictionPresent, admitted.jurisdiction, admitted.purpose,
        admitted.attestation, admitted.actType, admitted.duration⟩
      · rw [DateTime.lt_iff]
        exact Nat.not_lt.mpr early
      · rw [DateTime.le_iff]
        change ¬ expiresAt.micros ≤ clock.micros
        omega
      · rw [DateTime.sub]
        change (clock.micros : Int) - created.micros ≤ config.maxCandidateAge
        omega
  · cases made

end NetworkFinality
