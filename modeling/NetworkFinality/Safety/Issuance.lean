import NetworkFinality.Safety.Answers
import NetworkFinality.Spec.Documents
import NetworkFinality.Spec.Outcome

/-!
# Which candidates are answered

A call of the enforcement domain returns a decision, or an exception leaves it after the nonce
has been reserved and the counter advanced. The exceptions come from the protected state, when
it has no valid snapshots, from the evidence store, when the record has no digest or no room,
and for a granted candidate from the documents that are digested and signed. A call returns
exactly when none of them is in the way, and only a call that returns leaves an activation
record behind.
-/

namespace NetworkFinality

open Python Semantics Procedure

/-- The run ends with a value. -/
def Concludes [Hashlib] {α : Type} (program : Program α) (world : World) : Prop :=
  ∃ value after, program.run World.exec world = (.ok value, after)

section

variable [Hashlib] {α β : Type} {world : World}

theorem concludes_done {value : α} : Concludes (.done value : Program α) world :=
  ⟨value, world, rfl⟩

theorem concludes_bind {program : Program α} {rest : α → Program β} :
    Concludes (program >>= rest) world ↔
      ∃ value middle, program.run World.exec world = (.ok value, middle) ∧
        Concludes (rest value) middle := by
  simp only [Concludes, run_bind_ok]
  constructor
  · rintro ⟨result, after, value, middle, first, second⟩
    exact ⟨value, middle, first, result, after, second⟩
  · rintro ⟨value, middle, first, result, after, second⟩
    exact ⟨result, after, value, middle, first, second⟩

theorem run_bind_of_run {program : Program α} {rest : α → Program β} {value : α} {middle : World}
    (ran : program.run World.exec world = (.ok value, middle)) :
    (program >>= rest).run World.exec world = (rest value).run World.exec middle := by
  rw [run_bind, ran]

theorem concludes_bind_of_run {program : Program α} {rest : α → Program β} {value : α}
    {middle : World} (ran : program.run World.exec world = (.ok value, middle)) :
    Concludes (program >>= rest) world ↔ Concludes (rest value) middle := by
  rw [Concludes, run_bind_of_run ran]
  rfl

theorem concludes_call {op : Op} {next : op.Answer → Program β} :
    Concludes (.call op next) world ↔
      Concludes (next (World.exec op world).1) (World.exec op world).2 := Iff.rfl

theorem concludes_read (op : Op) (read : op.isWrite = false) {next : op.Answer → Program β} :
    Concludes (.call op next) world ↔ Concludes (next (World.exec op world).1) world := by
  rw [concludes_call, World.exec_readOnly read world]

theorem concludes_orRaise_bind {outcome : Except PyError α} {rest : α → Program β} :
    Concludes (orRaise outcome >>= rest) world ↔
      ∃ value, outcome = .ok value ∧ Concludes (rest value) world := by
  cases outcome <;> simp [Concludes]

/-- A part that only reads leaves it to the rest, in the same world. -/
theorem concludes_reads_bind {program : Program α} {rest : α → Program β}
    (reads : OnlyReads program) :
    Concludes (program >>= rest) world ↔
      ∃ value, program.run World.exec world = (.ok value, world) ∧ Concludes (rest value) world := by
  rw [concludes_bind]
  constructor
  · rintro ⟨value, middle, first, second⟩
    obtain rfl := ProtectedEnforcementDomain.reads_run reads first
    exact ⟨value, first, second⟩
  · rintro ⟨value, first, second⟩
    exact ⟨value, world, first, second⟩

/-! ### The fields that are validated -/

omit [Hashlib] in
theorem nonNegative_isOk_iff {value : Int} : (∃ result, nonNegative value = .ok result) ↔ 0 ≤ value := by
  unfold nonNegative
  split <;> simp [*]

omit [Hashlib] in
theorem validate_isOk_iff {least : Nat} {text : Str} :
    (∃ value, MinStr.validate least text = .ok value) ↔
      least ≤ text.length ∧ text.Encodable := by
  unfold MinStr.validate
  split <;> simp_all

/-! ### Evidence -/

/-- Evidence is committed when its record has a digest and, in SQLite, an integer for its
counter and a new identifier. -/
theorem EvidenceStore.commit_isOk_iff {store : EvidenceStore} {fields : EvidenceFields} :
    (∃ record after, store.commit fields = .ok (record, after)) ↔
      (fields.body store.tail).Encodable ∧ ∀ rows, store = .sqlite rows →
        bindInteger fields.monotonicCounter = .ok () ∧ rows.table fields.evidenceId = none := by
  constructor
  · rintro ⟨record, after, committed⟩
    obtain ⟨digested, -⟩ := EvidenceStore.commit_ok committed
    refine ⟨digestValue_isOk_iff.mp ⟨_, digested⟩, ?_⟩
    rintro rows rfl
    obtain ⟨⟨result, next⟩, commit, -⟩ := bind_eq_ok.mp committed
    exact ⟨SQLiteEvidenceStore.commit_fits commit, (SQLiteEvidenceStore.commit_ok commit).2.2.2.1⟩
  · rintro ⟨encodable, room⟩
    obtain ⟨digest, digested⟩ := digestValue_isOk_iff.mpr encodable
    rw [← EvidenceFields.bodyDigest_aware] at digested
    cases store with
    | inMemory store =>
        exact ⟨_, _, bind_eq_ok.mpr ⟨_, bind_eq_ok.mpr ⟨digest, digested, rfl⟩, rfl⟩⟩
    | sqlite rows =>
        obtain ⟨fits, free⟩ := room rows rfl
        obtain ⟨after, committed⟩ := rows.commit_free digested free fits
        exact ⟨_, _, bind_eq_ok.mpr ⟨_, committed, rfl⟩⟩

end

/-! ### The parts of a call -/

/-- The protected state has valid snapshots. -/
structure ProtectedNetworkState.Snapshots (state : ProtectedNetworkState) : Prop where
  topologyEpoch : 0 ≤ state.topologyEpoch
  configurationEpoch : 0 ≤ state.configurationEpoch
  reference : 1 ≤ state.protectedStateReference.length ∧
    state.protectedStateReference.Encodable
  counter : 0 ≤ state.monotonicCounter

/-- Evidence of a decision has a digest, and the store has room for it. -/
structure Recordable (world : World) (draws : IssueDraws) (candidate : NetworkCandidateAct) :
    Prop where
  texts : ∀ text ∈ [draws.evidenceId, candidate.candidateActId.1, draws.decisionId,
    world.state.protectedStateReference, world.evidenceStore.tail], text.Encodable
  counter : (Value.int (world.state.monotonicCounter + 1)).Encodable
  room : ∀ rows, world.evidenceStore = .sqlite rows →
    world.state.monotonicCounter + 1 < 2 ^ 63 ∧ rows.table draws.evidenceId = none

/-- The authority of a candidate has canonical bytes. -/
structure Preparable (world : World) (ped : ProtectedEnforcementDomain) (draws : IssueDraws)
    (candidate : NetworkCandidateAct) : Prop where
  act : candidate.modelDump.Encodable
  expiry : ∃ expiresAt, world.clock.add
    (min ped.policy.authorityTtl (max 0 (candidate.expiresAt.sub world.clock))) = .ok expiresAt
  epochs : ∀ epoch, 0 ≤ world.state.epoch epoch ∧ (Value.int (world.state.epoch epoch)).Encodable
  names : ∀ text ∈ [draws.authorityId, ped.pedId, ped.signer.keyId, ped.signer.algorithm],
    text.Encodable

/-- The authority of a candidate has canonical bytes, and its identifier is new. -/
structure Issuable (world : World) (ped : ProtectedEnforcementDomain) (draws : IssueDraws)
    (candidate : NetworkCandidateAct) : Prop extends Preparable world ped draws candidate where
  unissued : world.activationStore.table draws.authorityId = none

namespace ProtectedEnforcementDomain

variable [Hashlib] {ped : ProtectedEnforcementDomain} {candidate : NetworkCandidateAct}
  {draws : IssueDraws} {now : DateTime} {world : World}

/-- Screening comes to a verdict on every candidate. -/
theorem screen_concludes : Concludes (ped.screen candidate now) world := by
  refine concludes_bind.mpr ⟨_, _, run_attempt .., ?_⟩
  rcases ((ped.policy.validate candidate now).run World.exec world).1 with denial | _
  · exact concludes_done
  · exact concludes_call.mpr concludes_done

/-- A decision is made when the protected state has valid snapshots. -/
theorem decision_concludes {denial : Option Denial} {decisionId : Str} :
    Concludes (ped.decision candidate denial decisionId) world ↔ world.state.Snapshots := by
  have attested : Concludes (ped.attested denial.isNone) world := by
    cases denial with
    | none => exact concludes_done
    | some denial =>
        rw [attested, if_neg (by simp), PolicyConfig.requiresAttestation]
        split
        · exact concludes_done
        · exact concludes_call.mpr concludes_done
  obtain ⟨flag, after, attesting⟩ := attested
  obtain rfl := reads_run attested_state.reads attesting
  simp only [decision, concludes_reads_bind attested_state.reads, ask, perform, call_bind,
    done_bind, concludes_read (.epoch _) rfl, concludes_read .protectedStateReference rfl,
    concludes_read .monotonicCounter rfl, concludes_orRaise_bind, pure_eq_done, concludes_done,
    and_true, exists_and_right, nonNegative_isOk_iff, validate_isOk_iff, World.exec]
  constructor
  · rintro ⟨-, topology, configuration, reference, counter⟩
    exact ⟨topology, configuration, reference, counter⟩
  · rintro ⟨topology, configuration, reference, counter⟩
    exact ⟨⟨flag, attesting⟩, topology, configuration, reference, counter⟩

/-- Evidence of a decision is recorded when it has a digest and the store has room. -/
theorem record_concludes {decision : NetworkValidationDecision} {time : DateTime}
    (counter : 0 ≤ world.state.monotonicCounter) :
    Concludes (record candidate decision draws time) world ↔ Recordable world draws candidate := by
  have fields : (evidenceOf candidate decision draws time world.state.protectedStateReference
      (world.state.monotonicCounter + 1)).committedAt = .utc time := rfl
  have decided : decision.decision.value.Encodable := by
    cases decision.decision <;> exact Str.encodable_ofString _
  have binds : bindInteger (world.state.monotonicCounter + 1) = .ok () ↔
      world.state.monotonicCounter + 1 < 2 ^ 63 := by
    unfold bindInteger
    split <;> simp <;> omega
  have commits : Concludes (record candidate decision draws time) world ↔
      ∃ record after, world.evidenceStore.commit (evidenceOf candidate decision draws time
        world.state.protectedStateReference (world.state.monotonicCounter + 1)) =
          .ok (record, after) := by
    simp only [record, ask, perform, call_bind, done_bind, concludes_call, concludes_orRaise_bind,
      pure_eq_done, concludes_done, and_true, World.exec, ProtectedNetworkState.advanceCounter]
    rcases world.evidenceStore.commit (evidenceOf candidate decision draws time
      world.state.protectedStateReference (world.state.monotonicCounter + 1)) with
      error | ⟨record, after⟩ <;> simp
  rw [commits, EvidenceStore.commit_isOk_iff, EvidenceFields.body_encodable fields]
  constructor
  · rintro ⟨⟨texts, digits⟩, room⟩
    refine ⟨?_, digits, fun rows file => ?_⟩
    · simpa [evidenceOf, decided] using texts
    · exact ⟨binds.mp (room rows file).1, (room rows file).2⟩
  · rintro ⟨texts, digits, room⟩
    refine ⟨⟨?_, digits⟩, fun rows file => ?_⟩
    · simpa [evidenceOf, decided] using texts
    · exact ⟨binds.mpr (room rows file).1, (room rows file).2⟩

/-- The binding of an authority is built when no epoch is negative, from digests that are
valid. -/
theorem bindingOf_concludes {digest commitment : Str} {evidence : EvidenceRecord}
    (digestValid : 8 ≤ digest.length ∧ digest.Encodable)
    (evidenceValid : 8 ≤ evidence.digest.length ∧ evidence.digest.Encodable)
    (commitmentValid : 16 ≤ commitment.length ∧ commitment.Encodable) :
    Concludes (bindingOf candidate digest evidence commitment) world ↔
      ∀ epoch, 0 ≤ world.state.epoch epoch := by
  simp only [bindingOf, ask, perform, call_bind, done_bind, concludes_read (.epoch _) rfl,
    concludes_read .protectedStateReference rfl, concludes_orRaise_bind, pure_eq_done,
    concludes_done, and_true, exists_and_right, nonNegative_isOk_iff, validate_isOk_iff,
    World.exec, digestValid, evidenceValid, commitmentValid, true_and]
  constructor
  · rintro ⟨topology, configuration, policy, authority, revocation⟩ (_ | _ | _ | _ | _)
    all_goals assumption
  · intro each
    exact ⟨each .topology, each .configuration, each .policy, each .authority, each .revocation⟩

/-- A binding holds the protected state of the world it is built in. -/
theorem bindingOf_run {digest commitment : Str} {evidence : EvidenceRecord}
    {binding : AuthorityBinding}
    (ran : (bindingOf candidate digest evidence commitment).run World.exec world =
      (.ok binding, world)) :
    binding.protectedStateReference = world.state.protectedStateReference ∧
      ∀ epoch, (binding.epoch epoch : Int) = world.state.epoch epoch := by
  obtain ⟨past, returned, answers⟩ := (run_reads_ok bindingOf_state.reads).mp ran
  have bound := bindingOf_returns returned
  exact ⟨answers _ bound.reference, fun epoch => answers _ (bound.epochs epoch)⟩

omit [Hashlib] in
/-- Apart from the epochs, all values of a binding come from documents that are digested. -/
theorem binding_encodable {past : List (Event system)} {digest commitment : Str}
    {evidence : EvidenceRecord} {binding : AuthorityBinding}
    (bound : Bound candidate digest evidence commitment binding past)
    (act : candidate.modelDump.Encodable)
    (texts : ∀ text ∈ [digest, evidence.evidenceId, evidence.digest,
      binding.protectedStateReference, commitment], text.Encodable) :
    binding.modelDump.Encodable ↔ ∀ epoch, (Value.int (binding.epoch epoch)).Encodable := by
  obtain ⟨nonce, sequence, sinkId⟩ : Str.Encodable candidate.freshness.nonce ∧
      (Value.optional (fun sequence => .int sequence) candidate.freshness.sequence).Encodable ∧
      Str.Encodable candidate.finalitySink.sinkId := by
    simp only [NetworkCandidateAct.modelDump, Freshness.modelDump, FinalitySinkDescriptor.modelDump,
      Value.encodable_field, Value.encodable_no_fields, Value.fields_cons, Value.fields_nil,
      Value.encodable_str, and_true] at act
    grind
  have boundary : Str.Encodable (boundaryId candidate.finalitySink.sinkType.value
      candidate.finalitySink.sinkId) := by
    simp only [boundaryId, Str.encodable_append]
    exact ⟨⟨⟨Str.encodable_ofString _, candidate.finalitySink.sinkType.value_encodable⟩,
      Str.encodable_ofString _⟩, sinkId⟩
  rw [AuthorityBinding.modelDump_encodable, bound.candidateActDigest, bound.evidenceId,
    bound.evidenceDigest, bound.nonce, bound.sequence, bound.finalitySinkId, bound.boundary,
    bound.commitment]
  simp only [List.forall_mem_cons, List.not_mem_nil, false_implies, implies_true, and_true]
    at texts ⊢
  grind

/-- What is prepared has been digested and signed. -/
theorem preparable_of_concludes {evidence : EvidenceRecord}
    (concludes : Concludes (ped.prepare candidate evidence draws world.clock) world) :
    Preparable world ped draws candidate := by
  obtain ⟨⟨authority, activation⟩, after, ran⟩ := concludes
  obtain rfl := reads_run prepare_reads ran
  obtain ⟨past, returned, answers⟩ := (run_reads_ok prepare_reads).mp ran
  have prepared := prepare_returns returned
  obtain ⟨payload, signed, issuer⟩ := prepared.issuer
  have unsigned : (authority.withSignature []).modelDump.Encodable :=
    canonicalJsonBytes_isOk_iff.mp ⟨payload, signed⟩
  obtain ⟨names, -, binding⟩ := NetworkFinalityAuthority.modelDump_encodable.mp unsigned
  have written := (AuthorityBinding.modelDump_encodable.mp binding).2.1
  refine ⟨digestValue_isOk_iff.mp ⟨_, prepared.candidateDigest⟩, ⟨_, prepared.expiresAt⟩,
    fun epoch => ?_, ?_⟩
  · have bound : (authority.binding.epoch epoch : Int) = after.state.epoch epoch :=
      answers _ (prepared.binding.epochs epoch)
    rw [← bound]
    exact ⟨Int.natCast_nonneg _, written epoch⟩
  · simp only [NetworkFinalityAuthority.withSignature, prepared.authorityId, issuer,
      List.forall_mem_cons] at names ⊢
    exact ⟨names.1, names.2.2.2.1, names.2.2.2.2.1, names.2.2.2.2.2.1, by rintro _ ⟨⟩⟩

/-- What has canonical bytes is prepared, whatever the signer writes. -/
theorem concludes_of_preparable (written : ∀ payload, (ped.signer.sign payload).Encodable)
    {evidence : EvidenceRecord} (evidenceLong : 8 ≤ evidence.digest.length)
    (texts : ∀ text ∈ [evidence.evidenceId, evidence.digest, draws.decisionId,
      world.state.protectedStateReference], text.Encodable)
    (preparable : Preparable world ped draws candidate) :
    Concludes (ped.prepare candidate evidence draws world.clock) world := by
  obtain ⟨act, ⟨expiresAt, added⟩, epochs, names⟩ := preparable
  obtain ⟨digest, digested⟩ : ∃ digest, candidateDigest candidate = .ok digest :=
    digestValue_isOk_iff.mpr act
  have digestLong : 8 ≤ digest.length := by
    rw [length_digestValue digested]
    decide
  have commitmentLong : 16 ≤ (b64url (hashBytes draws.token .sha256)).length := by
    rw [length_b64url, hashBytes, Hashlib.length_digest]
    decide
  have concludes : Concludes (bindingOf candidate digest evidence
      (b64url (hashBytes draws.token .sha256))) world :=
    (bindingOf_concludes ⟨digestLong, (encodable_of_digestValue digested).1⟩
      ⟨evidenceLong, texts _ (by simp)⟩ ⟨commitmentLong, b64url_encodable _⟩).mpr
        fun epoch => (epochs epoch).1
  obtain ⟨binding, after, ran⟩ := concludes
  obtain rfl := reads_run bindingOf_state.reads ran
  obtain ⟨past, returned, answers⟩ := (run_reads_ok bindingOf_state.reads).mp ran
  obtain ⟨reference, bound⟩ := bindingOf_run ran
  have encodable : binding.modelDump.Encodable := by
    refine (binding_encodable (bindingOf_returns returned) act ?_).mpr fun epoch => ?_
    · rw [reference]
      simp only [List.forall_mem_cons] at texts ⊢
      exact ⟨(encodable_of_digestValue digested).1, texts.1, texts.2.1, texts.2.2.2.1,
        b64url_encodable _, by rintro _ ⟨⟩⟩
    · rw [bound epoch]
      exact (epochs epoch).2
  have signed (signature : Str) (textual : signature.Encodable) :
      (NetworkFinalityAuthority.modelDump ⟨draws.authorityId, candidate.candidateActId,
        draws.decisionId, scopeOf candidate, binding, ⟨after.clock, expiresAt, true⟩,
        ⟨ped.pedId, ped.signer.keyId, ped.signer.algorithm, signature⟩⟩).Encodable := by
    refine NetworkFinalityAuthority.modelDump_encodable.mpr
      ⟨?_, scopeOf_encodable act, encodable⟩
    have actId : Str.Encodable candidate.candidateActId := by
      simp only [NetworkCandidateAct.modelDump, Value.encodable_field, Value.fields_cons,
        Value.fields_nil, Value.encodable_str] at act
      exact act.2.2.1
    simp only [List.forall_mem_cons] at texts names ⊢
    exact ⟨names.1, actId, texts.2.2.1, names.2.1, names.2.2.1, names.2.2.2.1, textual,
      by rintro _ ⟨⟩⟩
  simp only [prepare, concludes_orRaise_bind, concludes_reads_bind bindingOf_state.reads,
    pure_eq_done, concludes_done, and_true]
  obtain ⟨payload, unsigned⟩ := canonicalJsonBytes_isOk_iff.mpr (signed [] (by rintro x ⟨⟩))
  exact ⟨digest, digested, expiresAt, added, binding, ran, payload, unsigned,
    digestValue_isOk_iff.mpr (signed _ (written payload))⟩

/-- An authority is issued when its documents have canonical bytes and its identifier is new. -/
theorem issue_concludes (written : ∀ payload, (ped.signer.sign payload).Encodable)
    {evidence : EvidenceRecord} (evidenceLong : 8 ≤ evidence.digest.length)
    (texts : ∀ text ∈ [evidence.evidenceId, evidence.digest, draws.decisionId,
      world.state.protectedStateReference], text.Encodable) :
    Concludes (ped.issue candidate evidence draws world.clock) world ↔
      Issuable world ped draws candidate := by
  have puts {activation : ActivationRecord} {authority : NetworkFinalityAuthority} :
      Concludes (do
        let stored ← ask (.putActivation activation)
        orRaise stored
        return authority) world ↔ ∃ after, world.activationStore.put activation = .ok after := by
    simp only [ask, perform, call_bind, done_bind, concludes_call, concludes_orRaise_bind,
      pure_eq_done, concludes_done, and_true, World.exec]
    cases world.activationStore.put activation <;> simp
  rw [issue, concludes_reads_bind prepare_reads]
  constructor
  · rintro ⟨⟨authority, activation⟩, ran, stored⟩
    obtain ⟨after, put⟩ := puts.mp stored
    obtain ⟨past, returned, -⟩ := (run_reads_ok prepare_reads).mp ran
    have prepared := prepare_returns returned
    have free := (ActivationStore.table_put put).1
    rw [prepared.activationId, prepared.authorityId] at free
    exact ⟨preparable_of_concludes ⟨_, _, ran⟩, free⟩
  · rintro ⟨preparable, free⟩
    obtain ⟨⟨authority, activation⟩, after, ran⟩ :=
      concludes_of_preparable written evidenceLong texts preparable
    obtain rfl := reads_run prepare_reads ran
    obtain ⟨past, returned, -⟩ := (run_reads_ok prepare_reads).mp ran
    have prepared := prepare_returns returned
    obtain ⟨nonce, sinkId⟩ := candidate.encodable prepared.candidateDigest
    obtain ⟨payload, signed, -⟩ := prepared.issuer
    obtain ⟨authorityId, -, commitment⟩ := authority.encodable signed
    rw [prepared.binding.commitment] at commitment
    rw [← prepared.authorityId, ← prepared.activationId] at free
    refine ⟨⟨authority, activation⟩, ran, puts.mpr (ActivationStore.put_total _ ?_ free)⟩
    simp only [List.forall_mem_cons]
    refine ⟨?_, (encodable_of_digestValue prepared.authorityDigest).1,
      (encodable_of_digestValue prepared.candidateDigest).1, ?_, ?_, commitment, by rintro _ ⟨⟩⟩
    · rwa [prepared.activationId]
    · rwa [prepared.activationSink]
    · rwa [prepared.activationNonce]

/-! ### The whole call -/

omit [Hashlib] in
theorem issuable_congr {other : World} (clock : other.clock = world.clock)
    (epochs : ∀ epoch, other.state.epoch epoch = world.state.epoch epoch)
    (activations : other.activationStore = world.activationStore) :
    Issuable other ped draws candidate ↔ Issuable world ped draws candidate := by
  constructor
  · rintro ⟨⟨act, expiry, written, names⟩, free⟩
    rw [clock] at expiry
    rw [activations] at free
    exact ⟨⟨act, expiry, fun epoch => epochs epoch ▸ written epoch, names⟩, free⟩
  · rintro ⟨⟨act, expiry, written, names⟩, free⟩
    rw [← clock] at expiry
    rw [← activations] at free
    exact ⟨⟨act, expiry, fun epoch => (epochs epoch).symm ▸ written epoch, names⟩, free⟩

/-- Recording leaves evidence whose texts have a UTF-8 form, and everything an authority is
issued from as it was. -/
theorem record_issuable {decision result : NetworkValidationDecision} {evidence : EvidenceRecord}
    {after : World}
    (ran : (record candidate decision draws now).run World.exec world =
      (.ok (evidence, result), after)) :
    8 ≤ evidence.digest.length ∧
      (∀ text ∈ [evidence.evidenceId, evidence.digest, draws.decisionId,
        after.state.protectedStateReference], text.Encodable) ∧
      after.clock = world.clock ∧
      (Issuable after ped draws candidate ↔ Issuable world ped draws candidate) := by
  obtain ⟨store, committed, rfl, -⟩ := record_run ran
  have recorded := EvidenceStore.commit_ok committed
  have texts := EvidenceFields.encodable recorded.digest
  simp only [List.forall_mem_cons, evidenceOf] at texts
  have digested := recorded.digest
  rw [EvidenceFields.bodyDigest_aware] at digested
  refine ⟨?_, ?_, rfl, issuable_congr rfl (fun epoch => by simp) rfl⟩
  · rw [length_digestValue digested]
    decide
  · have evidenceId : evidence.evidenceId = draws.evidenceId := by
      rw [recorded.returned]
      rfl
    simp only [List.forall_mem_cons, evidenceId]
    exact ⟨texts.1, texts.2.2.2.2.2.2.1, texts.2.2.1, texts.2.2.2.2.1, by rintro _ ⟨⟩⟩

/-- Screening reserves the nonce of a granted candidate and changes nothing else. -/
theorem screen_keeps {denial : Option Denial} {after : World}
    (ran : (ped.screen candidate world.clock).run World.exec world = (.ok denial, after)) :
    (denial = none ↔ ped.Grants candidate world) ∧
      ∃ registry, after = { world with nonceRegistry := registry } ∧
        (ped.Grants candidate world → candidate.freshness.nonce.1 ∈ registry) := by
  rcases screen_run ran with ⟨rfl, grants, rfl⟩ | ⟨denied, refused, rfl⟩
  · exact ⟨iff_of_true rfl grants, _, rfl, fun _ => Finset.mem_insert_self _ _⟩
  · exact ⟨iff_of_false denied refused, _, rfl, fun grants => absurd grants refused⟩

omit [Hashlib] in
theorem recordable_congr {other : World} (state : other.state = world.state)
    (evidence : other.evidenceStore = world.evidenceStore) :
    Recordable other draws candidate ↔ Recordable world draws candidate := by
  constructor
  · rintro ⟨texts, counter, room⟩
    rw [state, evidence] at texts
    rw [state] at counter room
    rw [evidence] at room
    exact ⟨texts, counter, room⟩
  · rintro ⟨texts, counter, room⟩
    rw [← state, ← evidence] at texts
    rw [← state] at counter room
    rw [← evidence] at room
    exact ⟨texts, counter, room⟩

/-- A call concludes when its parts do, in the worlds they find. -/
theorem validateAndIssue_parts {denial : Option Denial} {screened : World}
    (screening : (ped.screen candidate world.clock).run World.exec world = (.ok denial, screened)) :
    Concludes (ped.validateAndIssue draws candidate) world ↔
      ∃ first, (ped.decision candidate denial draws.decisionId).run World.exec screened =
          (.ok first, screened) ∧
        ∃ evidence result recorded, (record candidate first draws world.clock).run World.exec
            screened = (.ok (evidence, result), recorded) ∧
          (denial = none → Concludes (ped.issue candidate evidence draws world.clock) recorded) := by
  have clock : (ask .clock : Program DateTime).run World.exec world =
      (.ok world.clock, world) := rfl
  rw [validateAndIssue, concludes_bind_of_run clock, concludes_bind_of_run screening,
    concludes_reads_bind decision_reads]
  refine exists_congr fun first => and_congr_right fun _ => ?_
  rw [concludes_bind, Prod.exists]
  refine exists_congr fun evidence => exists_congr fun result => exists_congr fun recorded =>
    and_congr_right fun _ => ?_
  cases denial with
  | none =>
      simp only [Option.isSome_none, Bool.false_eq_true, if_false, concludes_bind, pure_eq_done,
        concludes_done, and_true, true_implies]
      rfl
  | some denial => simp [concludes_done]

/-- A call returns exactly when the protected state has valid snapshots, evidence of the
decision is recorded, and the authority of a granted candidate can be issued. -/
theorem validateAndIssue_concludes (written : ∀ payload, (ped.signer.sign payload).Encodable) :
    Concludes (ped.validateAndIssue draws candidate) world ↔
      world.state.Snapshots ∧ Recordable world draws candidate ∧
        (ped.Grants candidate world → Issuable world ped draws candidate) := by
  obtain ⟨denial, screened, screening⟩ : Concludes (ped.screen candidate world.clock) world :=
    screen_concludes
  obtain ⟨verdict, registry, same, -⟩ := screen_keeps screening
  have state : screened.state = world.state := by rw [same]
  have recordable : Recordable screened draws candidate ↔ Recordable world draws candidate :=
    recordable_congr state (by rw [same])
  have issuable : Issuable screened ped draws candidate ↔ Issuable world ped draws candidate :=
    issuable_congr (by rw [same]) (fun epoch => by rw [state]) (by rw [same])
  have clock : screened.clock = world.clock := by rw [same]
  rw [validateAndIssue_parts screening, ← recordable, ← issuable, ← state, ← verdict]
  constructor
  · rintro ⟨first, deciding, evidence, decision, recorded, recording, issuing⟩
    have snapshots := decision_concludes.mp ⟨_, _, deciding⟩
    refine ⟨snapshots, (record_concludes snapshots.counter).mp ⟨_, _, recording⟩,
      fun granted => ?_⟩
    obtain ⟨long, texts, time, kept⟩ := record_issuable recording
    have issued := issuing granted
    rw [← clock, ← time, issue_concludes written long texts] at issued
    exact kept.mp issued
  · rintro ⟨snapshots, recordable, grant⟩
    obtain ⟨first, after, deciding⟩ :
        Concludes (ped.decision candidate denial draws.decisionId) screened :=
      decision_concludes.mpr snapshots
    obtain rfl := reads_run decision_reads deciding
    obtain ⟨⟨evidence, decision⟩, recorded, recording⟩ :
        Concludes (record candidate first draws world.clock) after :=
      (record_concludes snapshots.counter).mpr recordable
    obtain ⟨long, texts, time, kept⟩ := record_issuable recording
    refine ⟨first, deciding, evidence, decision, recorded, recording, fun granted => ?_⟩
    rw [← clock, ← time, issue_concludes written long texts]
    exact kept.mpr (grant granted)

/-- What a call that issues an authority has put, and the world it leaves. -/
theorem issued_run {decision : NetworkValidationDecision} {authority : NetworkFinalityAuthority}
    {after : World}
    (ran : (ped.validateAndIssue draws candidate).run World.exec world =
      (.ok ⟨decision, some authority⟩, after)) :
    ped.Grants candidate world ∧
      ∃ fields evidence store activation reads activations,
        world.evidenceStore.commit fields = .ok (evidence, store) ∧
        ped.Prepared candidate evidence draws world.clock authority activation reads ∧
        world.activationStore.put activation = .ok activations ∧
        after = { world with
          state := world.state.advanceCounter.2
          nonceRegistry := insert candidate.freshness.nonce.1 world.nonceRegistry
          evidenceStore := store
          activationStore := activations } := by
  obtain ⟨denial, first, past, evidence, recordedDecision, screened, recorded, screening, -,
    recording, ending⟩ := validateAndIssue_run ran
  obtain ⟨store, committed, rfl, -⟩ := record_run recording
  cases denial with
  | some denial =>
      obtain ⟨absent, -⟩ := ending
      cases absent
  | none =>
      obtain ⟨authority', issuing, same⟩ := ending
      obtain rfl := Option.some.inj (congrArg PEDResult.authority same)
      obtain ⟨-, grants, rfl⟩ := (screen_run screening).resolve_right (by simp)
      obtain ⟨activation, reads, activations, prepared, put, rfl⟩ := issue_run issuing
      exact ⟨grants, _, evidence, store, activation, reads, activations, committed, prepared, put,
        rfl⟩

/-- A granted candidate is issued an authority wherever the call returns. -/
theorem authority_of_grants {result : PEDResult} {after : World}
    (ran : (ped.validateAndIssue draws candidate).run World.exec world = (.ok result, after))
    (grants : ped.Grants candidate world) : ∃ authority, result.authority = some authority := by
  obtain ⟨denial, first, past, evidence, decision, screened, recorded, screening, -, -, ending⟩ :=
    validateAndIssue_run ran
  obtain rfl := (screen_keeps screening).1.mpr grants
  obtain ⟨authority, -, rfl⟩ := ending
  exact ⟨authority, rfl⟩

/-! ### Calls that raise -/

omit [Hashlib] in
/-- Operations other than the put of an activation record and those of a sink. -/
def Prior (op : Op) : Prop :=
  op.isWrite = false ∨ (∃ nonce, op = .reserve nonce) ∨ op = .advanceCounter ∨
    ∃ fields, op = .commitEvidence fields

theorem prior_keeps {op : Op} (prior : Prior op) (world : World) :
    (World.exec op world).2.activationStore = world.activationStore ∧
      world.nonceRegistry ⊆ (World.exec op world).2.nonceRegistry := by
  rcases prior with read | ⟨nonce, rfl⟩ | rfl | ⟨fields, rfl⟩
  · rw [World.exec_readOnly read world]
    exact ⟨rfl, subset_rfl⟩
  · refine ⟨rfl, ?_⟩
    simp only [World.exec, NonceRegistry.reserve]
    split
    · exact subset_rfl
    · exact Finset.subset_insert _ _
  · exact ⟨rfl, subset_rfl⟩
  · simp only [World.exec]
    cases world.evidenceStore.commit fields <;> exact ⟨rfl, subset_rfl⟩

/-- What a raising call leaves, when its first part puts no activation record. -/
theorem raise_bind {α β : Type} {program : Program α} {rest : α → Program β} {reason : Exit}
    {after : World} (prior : program.Uses Prior)
    (ran : (program >>= rest).run World.exec world = (.error reason, after))
    (later : ∀ value middle, (rest value).run World.exec middle = (.error reason, after) →
      after.activationStore = middle.activationStore ∧
        middle.nonceRegistry ⊆ after.nonceRegistry) :
    after.activationStore = world.activationStore ∧ world.nonceRegistry ⊆ after.nonceRegistry := by
  obtain ⟨activations, nonces⟩ := run_keeps World.exec
    (fun state => state.activationStore = world.activationStore ∧
      world.nonceRegistry ⊆ state.nonceRegistry)
    (fun op prior state kept => ⟨(prior_keeps prior state).1.trans kept.1,
      kept.2.trans (prior_keeps prior state).2⟩) prior ⟨rfl, subset_rfl⟩
  rw [run_bind] at ran
  rcases first : program.run World.exec world with ⟨error | value, middle⟩
  · rw [first] at ran activations nonces
    obtain ⟨-, rfl⟩ := Prod.mk.inj ran
    exact ⟨activations, nonces⟩
  · rw [first] at ran activations nonces
    obtain ⟨activations', nonces'⟩ := later value middle ran
    exact ⟨activations'.trans activations, nonces.trans nonces'⟩

/-- Only the first part can raise when the rest returns a value at once. -/
theorem error_of_bind_done {α β : Type} {program : Program α} {value : α → β} {reason : Exit}
    {after : World}
    (ran : (program >>= fun result => .done (value result)).run World.exec world =
      (.error reason, after)) : program.run World.exec world = (.error reason, after) := by
  rw [run_bind] at ran
  rcases first : program.run World.exec world with ⟨error | result, middle⟩
  · rw [first] at ran
    obtain ⟨same, rfl⟩ := Prod.mk.inj ran
    rw [Except.error.inj same]
  · rw [first] at ran
    simp at ran

/-- An authority whose issuing raises has not been put. -/
theorem issue_raises {evidence : EvidenceRecord} {reason : Exit} {after : World}
    (ran : (ped.issue candidate evidence draws now).run World.exec world = (.error reason, after)) :
    after.activationStore = world.activationStore ∧ world.nonceRegistry ⊆ after.nonceRegistry := by
  refine raise_bind (prepare_reads.mono fun _ => .inl) ran ?_
  rintro ⟨authority, activation⟩ middle storing
  cases outcome : middle.activationStore.put activation with
  | error error =>
      obtain ⟨-, rfl⟩ : _ = reason ∧ middle = after := by
        simpa [ask, perform, World.exec, outcome] using storing
      exact ⟨rfl, subset_rfl⟩
  | ok store => simp [ask, perform, World.exec, outcome] at storing

/-- A call that raises leaves no activation record, and has spent the nonce of a granted
candidate. -/
theorem validateAndIssue_raises {reason : Exit} {after : World}
    (ran : (ped.validateAndIssue draws candidate).run World.exec world = (.error reason, after)) :
    after.activationStore = world.activationStore ∧
      (ped.Grants candidate world → candidate.freshness.nonce.1 ∈ after.nonceRegistry) := by
  obtain ⟨denial, screened, screening⟩ : Concludes (ped.screen candidate world.clock) world :=
    screen_concludes
  obtain ⟨verdict, registry, rfl, spent⟩ := screen_keeps screening
  have clock : (ask .clock : Program DateTime).run World.exec world =
      (.ok world.clock, world) := rfl
  rw [validateAndIssue, run_bind_of_run clock, run_bind_of_run screening] at ran
  suffices kept : after.activationStore = world.activationStore ∧ registry ⊆ after.nonceRegistry from
    ⟨kept.1, fun grants => kept.2 (spent grants)⟩
  refine raise_bind (decision_reads.mono fun _ => .inl) ran fun first middle recording => ?_
  refine raise_bind (record_uses.mono ?_) recording ?_
  · rintro op (read | advances | ⟨fields, commits, -⟩)
    · exact .inl read
    · exact .inr (.inr (.inl advances))
    · exact .inr (.inr (.inr ⟨fields, commits⟩))
  · rintro ⟨evidence, decision⟩ recorded ending
    cases denial with
    | some denial => simp at ending
    | none => exact issue_raises (error_of_bind_done ending)

/-- With a signer that writes text, and durations counted in exact microseconds, a call returns
exactly when the protected state has valid snapshots, evidence of the decision is recorded,
and the authority of a granted candidate can be issued. A call that raises leaves no
activation record, and has spent the nonce of a granted candidate. -/
theorem candidates_answered (ped : ProtectedEnforcementDomain) (draws : IssueDraws)
    (candidate : NetworkCandidateAct) (world : World)
    (written : ∀ payload, (ped.signer.sign payload).Encodable) :
    (Concludes (ped.validateAndIssue draws candidate) world ↔
      world.state.Snapshots ∧ Recordable world draws candidate ∧
        (ped.Grants candidate world → Issuable world ped draws candidate)) ∧
    ∀ reason after,
      (ped.validateAndIssue draws candidate).run World.exec world = (.error reason, after) →
        after.activationStore = world.activationStore ∧
          (ped.Grants candidate world → candidate.freshness.nonce.1 ∈ after.nonceRegistry) :=
  ⟨validateAndIssue_concludes written, fun _ _ ran => validateAndIssue_raises ran⟩

end ProtectedEnforcementDomain

namespace Reference

theorem signer_written (payload : Bytes) : (signer.sign payload).Encodable :=
  @b64url_encodable _

/-- The nonce of the candidate has been presented before. -/
def presented : World :=
  { start.world with nonceRegistry := {candidate.freshness.nonce.1} }

/-- The topology epoch has no valid snapshot. -/
def degraded : World :=
  { start.world with state := { start.world.state with topologyEpoch := -1 } }

/-- The reference call returns, so its world had what recording and issuing need. A replay of
the candidate is recorded and returns as well. Where the snapshot fails the call raises, and
the nonce is spent on nothing. -/
theorem candidates_answered_reference :
    (@ProtectedEnforcementDomain.Grants .checksum start.ped candidate start.world ∧
      start.world.state.Snapshots ∧ Recordable start.world draws candidate ∧
      Issuable start.world start.ped draws candidate) ∧
    @Concludes .checksum _
      (@ProtectedEnforcementDomain.validateAndIssue .checksum start.ped draws candidate)
      presented ∧
    ∃ reason after, (@ProtectedEnforcementDomain.validateAndIssue .checksum start.ped draws
        candidate).run (@World.exec .checksum) degraded = (.error reason, after) ∧
      after.activationStore = degraded.activationStore ∧
      candidate.freshness.nonce.1 ∈ after.nonceRegistry := by
  have answered (world : World) := @ProtectedEnforcementDomain.candidates_answered .checksum
    start.ped draws candidate world signer_written
  obtain ⟨decision, ran⟩ := issued_authority
  rw [issued] at ran
  obtain ⟨grants, -⟩ := @ProtectedEnforcementDomain.issued_run .checksum _ _ _ _ _ _ _ ran
  obtain ⟨snapshots, recordable, issuable⟩ := (answered start.world).1.mp ⟨_, _, ran⟩
  refine ⟨⟨grants, snapshots, recordable, issuable grants⟩, ?_, ?_⟩
  · have spent : ¬ @ProtectedEnforcementDomain.Grants .checksum start.ped candidate presented :=
      fun granted => granted.2 (Finset.mem_singleton_self _)
    have recorded : Recordable presented draws candidate := { recordable with }
    exact (answered presented).1.mpr ⟨snapshots, recorded, fun granted => absurd granted spent⟩
  · have accepted := (@PolicyConfig.validate_ok .checksum _ _ _ _).mp grants.1
    have granted : @ProtectedEnforcementDomain.Grants .checksum start.ped candidate degraded :=
      ⟨(@PolicyConfig.validate_ok .checksum _ _ _ _).mpr { accepted with }, grants.2⟩
    rcases ran : (@ProtectedEnforcementDomain.validateAndIssue .checksum start.ped draws
      candidate).run (@World.exec .checksum) degraded with ⟨reason | result, after⟩
    · obtain ⟨activations, nonces⟩ := (answered degraded).2 reason after ran
      exact ⟨reason, after, rfl, activations, nonces granted⟩
    · obtain ⟨valid, -⟩ := (answered degraded).1.mp ⟨_, _, ran⟩
      exact absurd valid.topologyEpoch (by decide)

end Reference

end NetworkFinality
