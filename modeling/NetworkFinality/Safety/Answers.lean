import NetworkFinality.Refinement.SameTables
import NetworkFinality.Safety.SinkAtomicity

/-!
# Which requests are answered

A sink answers a request with a response, or an exception leaves it. The exceptions come
from three values that it digests or whose signature it checks: the authority, the
candidate and the parameters of the effect. A call ends with a response exactly when
each of these has canonical bytes, wherever the guards before it pass.
-/

namespace NetworkFinality

open Python Semantics Procedure

/-- The call ends with a response: it allows or denies. -/
def Answers (outcome : Except Exit SinkVerifyResponse) : Prop :=
  ∃ response, outcome = .ok response ∨ outcome = .error (.denied response)

/-- The authority is presented, under the verifier's key. -/
structure Recognized (sink : NetworkFinalitySink) (request : SinkRequest)
    (authority : NetworkFinalityAuthority) : Prop where
  presented : request.authority = some authority
  keyId : authority.issuer.keyId = sink.verifier.keyId
  algorithm : authority.issuer.algorithm = sink.verifier.algorithm

/-- The effect stays within the authority's scope, its parameters aside. -/
structure InScope (request : SinkRequest) (authority : NetworkFinalityAuthority)
    (activation : ActivationRecord) : Prop where
  nonce : authority.binding.nonce.1 = request.candidate.freshness.nonce
  activationNonce : activation.nonce = request.candidate.freshness.nonce
  sequence : authority.binding.sequence = request.candidate.freshness.sequence
  actType : authority.scope.actType = request.candidate.actType
  resourceType : authority.scope.resourceType = request.proposedEffect.resourceType
  resourceIds : request.proposedEffect.resourceIds.1.toFinset =
    authority.scope.resourceIds.1.toFinset
  subscriberScope : authority.scope.subscriberScope =
    request.candidate.resourceScope.subscriberScope
  purpose : authority.scope.purposeId = request.candidate.purpose.purposeId
  jurisdiction : authority.scope.jurisdiction = request.candidate.networkContext.jurisdiction
  effectType : request.proposedEffect.effectType = authority.scope.permittedEffectType

section

variable [Hashlib]

/-- Every guard before the digest of the authority passes in the world. -/
structure ReachesAuthority (world : World) (sink : NetworkFinalitySink) (request : SinkRequest)
    (authority : NetworkFinalityAuthority) (activation : ActivationRecord) : Prop where
  authenticated : Authenticated sink request authority world.clock
  evidence : ∃ evidence, EvidenceMatches request.candidate authority evidence ∧
    world.evidenceStore.get authority.binding.evidenceId = .ok (some evidence)
  activationStored : world.activationStore.get authority.authorityId = .ok (some activation)
  activationUnexpired : ¬ activation.expiresAt ≤ world.clock
  activationSink : activation.sinkId = sink.sinkId

/-- Every guard before the digest of the parameters passes in the world. -/
structure ReachesParameters (world : World) (sink : NetworkFinalitySink) (request : SinkRequest)
    (authority : NetworkFinalityAuthority) (activation : ActivationRecord) : Prop extends
    ReachesAuthority world sink request authority activation where
  activationMatches : ActivationMatches sink authority world.clock
    authority.binding.candidateActDigest.value activation
  unused : world.activationStore.isUsed authority.authorityId = .ok false
  sinkMatches : SinkMatches sink request.candidate authority
  reference : world.state.protectedStateReference = authority.binding.protectedStateReference
  epochs : ∀ epoch, world.state.epoch epoch = (authority.binding.epoch epoch : Int)
  inScope : InScope request authority activation

/-- What the sink encodes on the way has canonical bytes. -/
structure Answerable (world : World) (sink : NetworkFinalitySink) (request : SinkRequest) :
    Prop where
  unsigned : ∀ authority, Recognized sink request authority →
    (authority.withSignature []).modelDump.Encodable
  candidate : ∀ authority, Authenticated sink request authority world.clock →
    request.candidate.modelDump.Encodable
  authority : ∀ authority activation, ReachesAuthority world sink request authority activation →
    authority.modelDump.Encodable
  parameters : ∀ authority activation,
    ReachesParameters world sink request authority activation →
      request.proposedEffect.parametersValue.Encodable

/-! ### Raising -/

variable {α β : Type} {world : World}

/-- The run ends with an exception. -/
def Raises (program : Program α) (world : World) : Prop :=
  ∃ error, (program.run World.exec world).1 = .error (.raised error)

theorem answers_iff {program : Program SinkVerifyResponse} :
    Answers (program.run World.exec world).1 ↔ ¬ Raises program world := by
  unfold Answers Raises
  rcases (program.run World.exec world).1 with (response | error) | response <;> simp

@[simp] theorem not_raises_done {value : α} : ¬ Raises (.done value) world := by
  simp [Raises]

theorem raises_call {op : Op} {next : op.Answer → Program β} :
    Raises (.call op next) world ↔
      Raises (next (World.exec op world).1) (World.exec op world).2 := Iff.rfl

theorem raises_read (op : Op) (read : op.isWrite = false) {next : op.Answer → Program β} :
    Raises (.call op next) world ↔ Raises (next (World.exec op world).1) world := by
  rw [raises_call, World.exec_readOnly read world]

@[simp] theorem raises_refuseIf_bind {condition : Prop} [Decidable condition]
    {request : SinkRequest} {reason : FailureReason} {message : Str} {checks : Dict Str}
    {authorityId : Option Str} {rest : Unit → Program β} :
    Raises (refuseIf condition request reason message checks authorityId >>= rest) world ↔
      ¬ condition ∧ Raises (rest ()) world := by
  by_cases holds : condition <;> simp [refuseIf, exitIf, holds, Raises]

@[simp] theorem raises_orRaise_bind {outcome : Except PyError α} {rest : α → Program β} :
    Raises (orRaise outcome >>= rest) world ↔ (∃ error, outcome = .error error) ∨
      ∃ value, outcome = .ok value ∧ Raises (rest value) world := by
  cases outcome <;> simp [Raises]

@[simp] theorem raises_orRefuse_bind {value : Option α} {request : SinkRequest}
    {reason : FailureReason} {message : Str} {checks : Dict Str} {authorityId : Option Str}
    {rest : α → Program β} :
    Raises (orRefuse value request reason message checks authorityId >>= rest) world ↔
      ∃ found, value = some found ∧ Raises (rest found) world := by
  cases value <;> simp [orRefuse, Raises]

/-- A reading program returns what the world's answers lead to, and leaves the world. -/
theorem run_reads_ok {program : Program α} (reads : OnlyReads program) {value : α} :
    program.run World.exec world = (.ok value, world) ↔
      ∃ past, program.Returns past value ∧
        ∀ event ∈ past, event.answer = (World.exec event.op world).1 := by
  rw [run_ok_iff]
  refine exists_congr fun past => and_congr_right fun returned => ?_
  have readOnly : ∀ event ∈ past, ReadOnly World.exec event.op :=
    fun event member => World.exec_readOnly (reads.events returned event member)
  rw [answered_readOnly World.exec readOnly]
  exact and_iff_right rfl

/-- A composition raises in its first, reading part or in what follows. -/
theorem raises_bind {program : Program α} {rest : α → Program β} (reads : OnlyReads program) :
    Raises (program >>= rest) world ↔ Raises program world ∨
      ∃ value, (∃ past, program.Returns past value ∧
        ∀ event ∈ past, event.answer = (World.exec event.op world).1) ∧
      Raises (rest value) world := by
  simp only [← run_reads_ok reads]
  have kept := run_readOnly World.exec (reads.mono fun _ => World.exec_readOnly) world
  unfold Raises
  rw [run_bind]
  rcases ran : program.run World.exec world with ⟨outcome, after⟩
  obtain rfl : after = world := by rw [← kept, ran]
  cases outcome <;> simp

/-- The rest decides after a reading part that the world lets return. -/
theorem raises_bind_of_returns {program : Program α} {rest : α → Program β} {value : α}
    {past : List (Event system)} (reads : OnlyReads program) (returned : program.Returns past value)
    (answers : ∀ event ∈ past, event.answer = (World.exec event.op world).1) :
    Raises (program >>= rest) world ↔ Raises (rest value) world := by
  have ran := (run_reads_ok reads).mpr ⟨past, returned, answers⟩
  unfold Raises
  rw [run_bind, ran]

namespace NetworkFinalitySink

variable {sink : NetworkFinalitySink} {request : SinkRequest} {checks : Dict Str}
  {authority : NetworkFinalityAuthority} {activation : ActivationRecord}

/-- Checking the signature raises when the unsigned authority has no canonical bytes. -/
theorem raises_authenticate {now : DateTime} :
    Raises (sink.authenticate request now) world ↔
      ∃ authority, Recognized sink request authority ∧
        ¬ (authority.withSignature []).modelDump.Encodable := by
  simp only [authenticate, raises_orRefuse_bind, raises_refuseIf_bind, raises_orRaise_bind,
    pure_eq_done, not_raises_done, and_false, exists_false, or_false, unsignedAuthorityPayload,
    canonicalJsonBytes_error_iff]
  constructor
  · rintro ⟨authority, presented, recognized, unencodable⟩
    rw [not_or, not_not, not_not] at recognized
    exact ⟨authority, ⟨presented, recognized.1, recognized.2⟩, unencodable⟩
  · rintro ⟨authority, ⟨presented, keyId, algorithm⟩, unencodable⟩
    exact ⟨authority, presented, by simp [keyId, algorithm], unencodable⟩

/-- Matching the evidence raises when the candidate has no canonical bytes. -/
theorem raises_matchEvidence (encodable : authority.binding.evidenceId.Encodable) :
    Raises (matchEvidence request authority checks) world ↔
      ¬ request.candidate.modelDump.Encodable := by
  have found : world.evidenceStore.get authority.binding.evidenceId =
      .ok (world.evidenceStore.table authority.binding.evidenceId) :=
    world.evidenceStore.get_encodable encodable
  simp only [matchEvidence, raises_orRaise_bind, raises_refuseIf_bind, raises_orRefuse_bind,
    ask, perform, call_bind, done_bind, raises_read (.getEvidence _) rfl, World.exec, found,
    reduceCtorEq, exists_false, Except.ok.injEq, pure_eq_done, not_raises_done, and_false,
    or_false, candidateDigest, digestValue_error_iff]

/-- Matching the activation record raises when it is reached and the authority has no
canonical bytes. -/
theorem raises_matchActivation {digest : Str} (encodable : authority.authorityId.Encodable) :
    Raises (sink.matchActivation request authority world.clock digest checks) world ↔
      ∃ activation, world.activationStore.get authority.authorityId = .ok (some activation) ∧
        ¬ activation.expiresAt ≤ world.clock ∧ activation.sinkId = sink.sinkId ∧
        ¬ authority.modelDump.Encodable := by
  obtain ⟨found, read⟩ := world.activationStore.get_total encodable
  obtain ⟨used, flag⟩ := world.activationStore.isUsed_total encodable
  simp only [matchActivation, raises_orRaise_bind, raises_refuseIf_bind, raises_orRefuse_bind,
    ask, perform, call_bind, done_bind, raises_read (.getActivation _) rfl,
    raises_read (.isUsed _) rfl, World.exec, read, flag, reduceCtorEq, exists_false, false_or,
    pure_eq_done, not_raises_done, and_false, or_false, authorityDigest, digestValue_error_iff,
    Except.ok.injEq, exists_eq_left', not_not, ne_eq]

theorem quiet_matchSink : ¬ Raises (sink.matchSink request authority checks) world := by
  simp only [matchSink, raises_refuseIf_bind, pure_eq_done, not_raises_done, and_false,
    not_false_eq_true]

theorem quiet_matchEpoch {epoch : Epoch} {bound : Nat} {reason : FailureReason}
    {message name : Str} :
    ¬ Raises (matchEpoch request authority epoch bound reason message name checks) world := by
  simp only [matchEpoch, ask, perform, call_bind, done_bind, raises_read (.epoch _) rfl,
    raises_refuseIf_bind, pure_eq_done, not_raises_done, and_false, not_false_eq_true]

theorem quiet_matchState : ¬ Raises (matchState request authority checks) world := by
  simp only [matchState, ask, perform, call_bind, done_bind,
    raises_read .protectedStateReference rfl, raises_refuseIf_bind, raises_bind matchEpoch_reads,
    quiet_matchEpoch, and_false, exists_false, or_false, not_false_eq_true]

/-- Matching the scope raises when the parameters are reached and have no canonical bytes. -/
theorem raises_matchScope :
    Raises (matchScope request authority activation checks) world ↔
      InScope request authority activation ∧
        ¬ request.proposedEffect.parametersValue.Encodable := by
  simp only [matchScope, raises_orRaise_bind, raises_refuseIf_bind, pure_eq_done, not_raises_done,
    and_false, exists_false, or_false, digestValue_error_iff, not_or, not_not, ne_eq]
  constructor
  · rintro ⟨⟨nonce, activationNonce⟩, sequence, actType, resourceType, resourceIds,
      subscriberScope, purpose, jurisdiction, effectType, unencodable⟩
    exact ⟨⟨nonce, activationNonce, sequence, actType, resourceType, resourceIds,
      subscriberScope, purpose, jurisdiction, effectType⟩, unencodable⟩
  · rintro ⟨scope, unencodable⟩
    exact ⟨⟨scope.nonce, scope.activationNonce⟩, scope.sequence, scope.actType,
      scope.resourceType, scope.resourceIds, scope.subscriberScope, scope.purpose,
      scope.jurisdiction, scope.effectType, unencodable⟩

/-! ### The guards together -/

theorem raises_clock {rest : DateTime → Program β} :
    Raises (ask .clock >>= rest) world ↔ Raises (rest world.clock) world := raises_read .clock rfl

/-- An authenticated authority leaves it to the rest whether the guards raise. -/
theorem past_authenticate (authenticated : Authenticated sink request authority world.clock) :
    ∃ checks, ∀ rest : NetworkFinalityAuthority × Dict Str → Program β,
      Raises (sink.authenticate request world.clock >>= rest) world ↔
        Raises (rest (authority, checks)) world := by
  exact ⟨_, fun rest => raises_bind_of_returns authenticate_reads
    (authenticate_returns.mpr ⟨rfl, rfl, authenticated⟩) (by simp)⟩

theorem past_matchEvidence {evidence : EvidenceRecord}
    (evidenceMatches : EvidenceMatches request.candidate authority evidence)
    (stored : world.evidenceStore.get authority.binding.evidenceId = .ok (some evidence))
    (checks : Dict Str) :
    ∃ checks', ∀ rest : Str × Dict Str → Program β,
      Raises (matchEvidence request authority checks >>= rest) world ↔
        Raises (rest (authority.binding.candidateActDigest.value, checks')) world := by
  exact ⟨_, fun rest => raises_bind_of_returns matchEvidence_reads
    (matchEvidence_returns.mpr ⟨evidence, rfl, rfl, rfl, evidenceMatches⟩)
    (by simp [World.exec, stored])⟩

theorem raises_of_unsigned (recognized : Recognized sink request authority)
    (unencodable : ¬ (authority.withSignature []).modelDump.Encodable) :
    Raises (sink.verify request) world := by
  rw [verify, raises_clock]
  exact (raises_bind authenticate_reads).mpr
    (.inl (raises_authenticate.mpr ⟨authority, recognized, unencodable⟩))

theorem raises_of_candidate (authenticated : Authenticated sink request authority world.clock)
    (unencodable : ¬ request.candidate.modelDump.Encodable) :
    Raises (sink.verify request) world := by
  obtain ⟨payload, signed, -⟩ := authenticated.signature
  obtain ⟨-, encodableEvidence, -⟩ := authority.encodable signed
  obtain ⟨checks, past⟩ := past_authenticate authenticated
  rw [verify, raises_clock, past]
  exact (raises_bind matchEvidence_reads).mpr
    (.inl ((raises_matchEvidence encodableEvidence).mpr unencodable))

theorem raises_of_authority (reaches : ReachesAuthority world sink request authority activation)
    (unencodable : ¬ authority.modelDump.Encodable) : Raises (sink.verify request) world := by
  obtain ⟨authenticated, ⟨evidence, evidenceMatches, evidenceStored⟩, stored, unexpired, sinkId⟩ :=
    reaches
  obtain ⟨payload, signed, -⟩ := authenticated.signature
  obtain ⟨encodableId, -, -⟩ := authority.encodable signed
  obtain ⟨checks, past⟩ := past_authenticate authenticated
  obtain ⟨checks', past'⟩ := past_matchEvidence evidenceMatches evidenceStored checks
  rw [verify, raises_clock, past, past']
  exact (raises_bind matchActivation_reads).mpr (.inl ((raises_matchActivation encodableId).mpr
    ⟨activation, stored, unexpired, sinkId, unencodable⟩))

theorem raises_of_parameters (reaches : ReachesParameters world sink request authority activation)
    (unencodable : ¬ request.proposedEffect.parametersValue.Encodable) :
    Raises (sink.verify request) world := by
  obtain ⟨evidence, evidenceMatches, evidenceStored⟩ := reaches.evidence
  obtain ⟨topology, configuration, policy, authorityEpoch, revocation⟩ :=
    World.epochs_iff.mp reaches.epochs
  obtain ⟨checks, past⟩ := past_authenticate reaches.authenticated
  obtain ⟨checks', past'⟩ := past_matchEvidence evidenceMatches evidenceStored checks
  rw [verify, raises_clock, past, past', raises_bind_of_returns matchActivation_reads
    (matchActivation_returns.mpr ⟨rfl, rfl, reaches.activationMatches⟩)
    (by simp [World.exec, reaches.activationStored, reaches.unused]),
    raises_bind_of_returns matchSink_reads
    (matchSink_returns.mpr ⟨rfl, rfl, reaches.sinkMatches⟩) (by simp),
    raises_bind_of_returns matchState_reads (matchState_returns.mpr ⟨rfl, rfl⟩)
    (by simp [World.exec, reaches.reference, topology, configuration, policy, authorityEpoch,
      revocation])]
  exact (raises_bind matchScope_reads).mpr
    (.inl (raises_matchScope.mpr ⟨reaches.inScope, unencodable⟩))

/-- The guards do not raise when all that they reach has canonical bytes. -/
theorem quiet_of_answerable (answerable : Answerable world sink request) :
    ¬ Raises (sink.verify request) world := by
  intro raises
  rw [verify, raises_clock] at raises
  rcases (raises_bind authenticate_reads).mp raises with
    early | ⟨⟨authority, checks⟩, ⟨past, returned, -⟩, later⟩
  · obtain ⟨authority, recognized, unencodable⟩ := raises_authenticate.mp early
    exact unencodable (answerable.unsigned authority recognized)
  obtain ⟨-, -, authenticated⟩ := authenticate_returns.mp returned
  obtain ⟨payload, signed, -⟩ := authenticated.signature
  obtain ⟨encodableId, encodableEvidence, -⟩ := authority.encodable signed
  rcases (raises_bind matchEvidence_reads).mp later with
    early | ⟨⟨digest, checks'⟩, ⟨past, returned, answers⟩, later⟩
  · exact (raises_matchEvidence encodableEvidence).mp early
      (answerable.candidate authority authenticated)
  obtain ⟨evidence, rfl, rfl, -, evidenceMatches⟩ := matchEvidence_returns.mp returned
  have evidenceStored := (answers _ List.mem_cons_self).symm
  rcases (raises_bind matchActivation_reads).mp later with
    early | ⟨⟨activation, checks'⟩, ⟨past, returned, answers⟩, later⟩
  · obtain ⟨activation, stored, unexpired, sinkId, unencodable⟩ :=
      (raises_matchActivation encodableId).mp early
    exact unencodable (answerable.authority authority activation
      ⟨authenticated, ⟨evidence, evidenceMatches, evidenceStored⟩, stored, unexpired, sinkId⟩)
  obtain ⟨rfl, -, activationMatches⟩ := matchActivation_returns.mp returned
  have activationStored := (answers _ List.mem_cons_self).symm
  have unused := (answers _ (List.mem_cons_of_mem _ List.mem_cons_self)).symm
  rcases (raises_bind matchSink_reads).mp later with
    early | ⟨checks', ⟨past, returned, -⟩, later⟩
  · exact quiet_matchSink early
  obtain ⟨-, -, sinkMatches⟩ := matchSink_returns.mp returned
  rcases (raises_bind matchState_reads).mp later with
    early | ⟨checks', ⟨past, returned, answers⟩, later⟩
  · exact quiet_matchState early
  obtain ⟨rfl, -⟩ := matchState_returns.mp returned
  rcases (raises_bind matchScope_reads).mp later with
    early | ⟨checks', -, later⟩
  · obtain ⟨inScope, unencodable⟩ := raises_matchScope.mp early
    simp only [List.forall_mem_cons, List.not_mem_nil, false_implies, implies_true, and_true,
      World.exec] at answers
    obtain ⟨reference, topology, configuration, policy, authorityEpoch, revocation⟩ := answers
    have epochs := World.epochs_iff.mpr ⟨topology.symm, configuration.symm, policy.symm,
      authorityEpoch.symm, revocation.symm⟩
    exact unencodable (answerable.parameters authority activation
      ⟨⟨authenticated, ⟨evidence, evidenceMatches, evidenceStored⟩, activationStored,
        activationMatches.activationUnexpired, activationMatches.activationSink⟩,
        activationMatches, unused, sinkMatches, reference.symm, epochs, inScope⟩)
  · exact not_raises_done later

/-- The guards raise exactly when something they encode has no canonical bytes. -/
theorem raises_verify : Raises (sink.verify request) world ↔ ¬ Answerable world sink request := by
  constructor
  · intro raises answerable
    exact quiet_of_answerable answerable raises
  · intro unanswerable
    by_contra quiet
    refine unanswerable ⟨?_, ?_, ?_, ?_⟩
    · intro authority recognized
      by_contra unencodable
      exact quiet (raises_of_unsigned recognized unencodable)
    · intro authority authenticated
      by_contra unencodable
      exact quiet (raises_of_candidate authenticated unencodable)
    · intro authority activation reaches
      by_contra unencodable
      exact quiet (raises_of_authority reaches unencodable)
    · intro authority activation reaches
      by_contra unencodable
      exact quiet (raises_of_parameters reaches unencodable)

/-- The part under the lock does not raise when the network records the effect. -/
theorem quiet_effectuate {hex : Str} (encodable : authority.authorityId.Encodable) :
    ¬ Raises (sink.effectuate request (some hex) authority checks) world := by
  obtain ⟨used, flag⟩ := world.activationStore.isUsed_total encodable
  obtain ⟨consumed, after, consuming⟩ := world.activationStore.consume_total encodable
  simp only [effectuate, ask, perform, call_bind, done_bind, raises_read (.isUsed _) rfl, World.exec,
    flag, raises_orRaise_bind, raises_refuseIf_bind, reduceCtorEq, exists_false, false_or,
    Except.ok.injEq, exists_eq_left']
  rintro ⟨-, raises⟩
  rw [raises_call] at raises
  simp only [World.exec, consuming, orRaise_ok, done_bind, raises_refuseIf_bind] at raises
  obtain ⟨-, raises⟩ := raises
  rw [raises_call] at raises
  exact not_raises_done raises

/-- A call on a network that records its effect raises exactly when something it encodes has
no canonical bytes. -/
theorem raises_verifyAndEffectuate {hex : Str} :
    Raises (sink.verifyAndEffectuate request (some hex)) world ↔
      ¬ Answerable world sink request := by
  rw [verifyAndEffectuate, raises_bind verify_reads, raises_verify, or_iff_left]
  rintro ⟨⟨authority, checks⟩, ⟨past, verified, -⟩, raises⟩
  obtain ⟨now, evidence, activation, admitted, -, -⟩ := verify_returns.mp verified
  obtain ⟨payload, signed, -⟩ := admitted.signature
  exact quiet_effectuate (authority.encodable signed).1 raises

/-- A sink answers a request, and denies one whose parameters have no canonical bytes,
exactly when what it encodes on the way has canonical bytes. -/
theorem verifyAndEffectuate_answers (world : World) (sink : NetworkFinalitySink)
    (request : SinkRequest) (hex : Str) :
    (Answers ((sink.verifyAndEffectuate request (some hex)).run World.exec world).1 ∧
        (¬ request.proposedEffect.parametersValue.Encodable → ∃ response,
          ((sink.verifyAndEffectuate request (some hex)).run World.exec world).1 =
            .error (.denied response) ∧ response.Denies)) ↔
      Answerable world sink request := by
  have answers : Answers ((sink.verifyAndEffectuate request (some hex)).run World.exec world).1 ↔
      Answerable world sink request := by
    rw [answers_iff, raises_verifyAndEffectuate, not_not]
  rw [answers, and_iff_left_iff_imp, ← answers]
  rintro ⟨response, allowed | denied⟩ unencodable
  · -- What is allowed has had its parameters digested.
    rcases ran : (sink.verifyAndEffectuate request (some hex)).run World.exec world with
      ⟨outcome, after⟩
    rw [ran] at allowed
    obtain rfl : outcome = .ok response := allowed
    obtain ⟨authority, evidence, activation, _, permitted, -⟩ := verifyAndEffectuate_ok.mp ran
    exact absurd (digestValue_isOk_iff.mp ⟨_, permitted.parameters⟩) unencodable
  · refine ⟨response, denied, ?_⟩
    have path := trace_path World.exec (sink.verifyAndEffectuate request (some hex)) world
    rw [denied] at path
    exact verifyAndEffectuate_leaves.reason path

/-- Whatever is permitted raises when its parameters are replaced by some without
canonical bytes. -/
theorem not_answers_of_permitted {evidence : EvidenceRecord} {hex : Str}
    {parameters : List (Str × Value)}
    (permitted : Permitted world sink request authority evidence activation)
    (unencodable : ¬ ({ request.proposedEffect with
      parameters := parameters } : ProposedEffect).parametersValue.Encodable) :
    ¬ Answers ((sink.verifyAndEffectuate { request with proposedEffect :=
      { request.proposedEffect with parameters := parameters } } (some hex)).run
        World.exec world).1 := by
  rw [answers_iff, not_not, raises_verifyAndEffectuate]
  intro answerable
  refine unencodable (answerable.parameters authority activation ?_)
  exact {
    authenticated := ⟨permitted.presented, permitted.keyId, permitted.algorithm,
      permitted.signature, permitted.unexpired⟩
    evidence := ⟨evidence, permitted.toEvidenceMatches, permitted.evidenceStored⟩
    activationStored := permitted.activationStored
    activationUnexpired := permitted.activationUnexpired
    activationSink := permitted.activationSink
    activationMatches := permitted.toActivationMatches
    unused := permitted.unused
    sinkMatches := permitted.toSinkMatches
    reference := permitted.reference
    epochs := permitted.epochs
    inScope := ⟨permitted.nonce, permitted.activationNonce, permitted.sequence, permitted.actType,
      permitted.resourceType, permitted.resourceIds, permitted.subscriberScope, permitted.purpose,
      permitted.jurisdiction, permitted.effectType⟩ }

end NetworkFinalitySink

end

/-! ### Parameters without canonical bytes -/

namespace Reference

/-- Parameters with a float that is no number, with a lone surrogate, and with a dict whose
keys are of two types. -/
def unencodable : List (List (Str × Value)) :=
  [[("target", .float .nan)], [("target", .str [.surrogate 0])],
    [("target", .dict [(.str "low", .int 1), (.int 1, .int 2)])]]

/-- The reference request with other parameters under the same digest. -/
def withParameters (parameters : List (Str × Value)) : SinkRequest :=
  { request with proposedEffect := { request.proposedEffect with parameters := parameters } }

private theorem unencodable_parameters : ∀ parameters ∈ unencodable,
    ¬ ({ request.proposedEffect with
      parameters := parameters } : ProposedEffect).parametersValue.Encodable := by
  have dict {value : Value} (inner : ¬ value.Encodable) :
      ¬ ({ request.proposedEffect with
        parameters := [("target", value)] } : ProposedEffect).parametersValue.Encodable := by
    rintro (_ | _ | _ | _ | _ | _ | _ | _ | ⟨-, -, each⟩)
    exact inner (each (.str "target", value) (by simp))
  simp only [unencodable, List.forall_mem_cons, List.not_mem_nil, false_implies, implies_true,
    and_true]
  refine ⟨dict ?_, dict ?_, dict ?_⟩
  · rintro (_ | _ | _ | finite)
    exact finite
  · rintro (_ | _ | _ | _ | encodable)
    exact absurd encodable (by decide)
  · rintro (_ | _ | _ | _ | _ | _ | _ | _ | ⟨sortable, -, -⟩)
    revert sortable
    unfold Key.Sortable
    decide

/-- The permitted reference request raises with each of these parameters. -/
theorem unencodable_raise : unencodable.Forall fun parameters =>
    ¬ Answers ((@NetworkFinalitySink.verifyAndEffectuate .checksum start.sink
      (withParameters parameters) (some "0000000001")).run (@World.exec .checksum)
        issuedWorld).1 := by
  rw [List.forall_iff_forall_mem]
  intro parameters member
  obtain ⟨response, ran⟩ := effectuated_response
  rw [effectuated] at ran
  obtain ⟨authority, evidence, activation, hex, permitted, -⟩ :=
    (@NetworkFinalitySink.verifyAndEffectuate_ok _ _ _ _ .checksum _ _).mp ran
  exact @NetworkFinalitySink.not_answers_of_permitted .checksum _ _ _ _ _ _ _ _ permitted
    (unencodable_parameters parameters member)

end Reference

end NetworkFinality
