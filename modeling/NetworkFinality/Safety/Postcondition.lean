import NetworkFinality.Model.Engine
import NetworkFinality.Spec.Outcome

/-!
# The postcondition of a call of the enforcement domain

A call that returns shows one verdict in its decision, its predicates, its denial
code, its authority and its evidence. It appends one record of evidence under the
counter it has advanced. Only a granted call reserves a nonce and adds an activation
record, and no call does anything else to the world.
-/

namespace NetworkFinality

open Python Semantics Procedure ProtectedEnforcementDomain

/-- One verdict, in the five places that show it. -/
structure Verdict (granted : Prop) (result : PEDResult) (evidence : EvidenceRecord) : Prop where
  decision : result.decision.decision = .allow ↔ granted
  authority : result.authority.isSome = true ↔ granted
  denialCode : result.decision.denialCode = none ↔ granted
  predicates : result.decision.validatedPredicates.allTrue = true ↔ granted
  evidence : evidence.decision = ("ALLOW" : Str) ↔ granted

/-- One record of evidence of the decision has been appended to the chain. -/
structure Appended (world : World) (candidate : NetworkCandidateAct)
    (decision : NetworkValidationDecision) (evidence : EvidenceRecord) (after : World) : Prop where
  fresh : world.evidence evidence.evidenceId = none
  stored : after.evidence = Function.update world.evidence evidence.evidenceId (some evidence)
  retrieved : decision.evidenceId = some evidence.evidenceId ∧
    after.evidenceStore.get evidence.evidenceId = .ok (some evidence)
  chained : evidence.previousDigest = world.evidenceStore.tail ∧
    after.evidenceStore.tail = evidence.digest
  decisionId : evidence.decisionId = decision.decisionId
  candidateActId : evidence.candidateActId = candidate.candidateActId ∧
    decision.candidateActId = candidate.candidateActId
  counter : evidence.monotonicCounter = world.state.monotonicCounter + 1
  decisionCounter : decision.protectedState.monotonicCounter = evidence.monotonicCounter
  state : after.state = { world.state with monotonicCounter := evidence.monotonicCounter }

/-- The activation record is that of the candidate's authority. -/
structure Registers [Hashlib] (candidate : NetworkCandidateAct)
    (authority : NetworkFinalityAuthority) (activation : ActivationRecord) : Prop where
  authorityId : activation.authorityId = authority.authorityId
  authorityDigest : authorityDigest authority = .ok activation.authorityDigest
  candidateDigest : candidateDigest candidate = .ok activation.candidateDigest ∧
    authority.binding.candidateActDigest.value.1 = activation.candidateDigest
  sinkId : activation.sinkId = candidate.finalitySink.sinkId ∧
    authority.binding.finalitySinkId = activation.sinkId
  nonce : activation.nonce = candidate.freshness.nonce ∧
    authority.binding.nonce.1 = activation.nonce
  commitment : authority.binding.activationCommitment.1 = activation.activationCommitment
  expiresAt : activation.expiresAt = authority.lifetime.expiresAt
  unused : activation.used = false

/-- What a call that returns has done to the world. -/
structure Postcondition [Hashlib] (ped : ProtectedEnforcementDomain)
    (candidate : NetworkCandidateAct) (world : World) (result : PEDResult) (after : World)
    (evidence : EvidenceRecord) : Prop where
  verdict : Verdict (ped.Grants candidate world) result evidence
  appended : Appended world candidate result.decision evidence after
  denied : result.authority = none →
    after.nonceRegistry = world.nonceRegistry ∧ after.activationStore = world.activationStore
  granted : ∀ authority, result.authority = some authority →
    candidate.freshness.nonce.1 ∉ world.nonceRegistry ∧
    after.nonceRegistry = insert candidate.freshness.nonce.1 world.nonceRegistry ∧
    ∃ activation, Registers candidate authority activation ∧
      world.activations activation.authorityId = none ∧
      after.activations =
        Function.update world.activations activation.authorityId (some activation)
  networks : after.networks = world.networks
  clock : after.clock = world.clock

namespace ProtectedEnforcementDomain

variable [Hashlib] {ped : ProtectedEnforcementDomain} {candidate : NetworkCandidateAct}
  {draws : IssueDraws} {now : DateTime} {world after : World}

omit [Hashlib] in
/-- What the decision and the evidence say follows from the denial. -/
theorem verdict_of_denial {granted : Prop} {denial : Option Denial} {past : List (Event system)}
    {first : NetworkValidationDecision} {result : PEDResult} {evidence : EvidenceRecord}
    (returned : (ped.decision candidate denial draws.decisionId).Returns past first)
    (decides : denial = none ↔ granted) (decision : result.decision.decision = first.decision)
    (denialCode : result.decision.denialCode = first.denialCode)
    (predicates : result.decision.validatedPredicates = first.validatedPredicates)
    (authority : result.authority.isSome = denial.isNone)
    (shown : evidence.decision = first.decision.value) : Verdict granted result evidence := by
  obtain ⟨code, allTrue⟩ := decision_verdict returned
  have outcome := (decision_returns returned).outcome
  have distinct : Decision.deny.value ≠ "ALLOW" := by decide
  constructor <;> rw [← decides]
  · rw [decision, outcome]
    cases denial <;> simp
  · rw [authority]
    cases denial <;> simp
  · rw [denialCode, code]
    cases denial <;> simp
  · rw [predicates, allTrue]
    cases denial <;> simp
  · rw [shown, outcome]
    cases denial <;> simp [distinct]
    rfl

/-- A commit under a new identifier appends the record as it will be read back. -/
theorem record_appends {first : NetworkValidationDecision} {denial : Option Denial}
    {past : List (Event system)} {evidence : EvidenceRecord} {store : EvidenceStore}
    (decided : Decided candidate denial.isNone draws.decisionId first past)
    (fresh : world.evidence draws.evidenceId = none)
    (committed : world.evidenceStore.commit (evidenceOf candidate first draws now
        world.state.protectedStateReference (world.state.monotonicCounter + 1)) =
      .ok (evidence, store))
    (state : after.state = world.state.advanceCounter.2) (stored : after.evidenceStore = store) :
    ∃ record : EvidenceRecord, record.decision = first.decision.value ∧
      Appended world candidate {
        first with
        evidenceId := some evidence.evidenceId
        protectedState := {
          first.protectedState with monotonicCounter := world.state.monotonicCounter + 1 } }
        record after := by
  have facts := EvidenceStore.commit_ok committed
  obtain ⟨record, agrees, table⟩ := facts.table
  have named : record.evidenceId = draws.evidenceId := by rw [agrees.evidenceId, facts.returned]; rfl
  have fields := congrArg EvidenceRecord.toEvidenceFields agrees.fields
  rw [facts.returned] at fields
  refine ⟨record, congrArg EvidenceFields.decision fields, ?_⟩
  exact {
    fresh := by rw [named, fresh]
    stored := by
      rw [named, World.evidence, stored, table]
      rfl
    retrieved := by
      refine ⟨congrArg some agrees.evidenceId.symm, EvidenceStore.get_some ?_⟩
      rw [named, stored, table]
      exact Function.update_self ..
    chained := by
      rw [agrees.previousDigest, agrees.digest, stored, facts.tail, facts.returned]
      exact ⟨rfl, rfl⟩
    decisionId := (congrArg EvidenceFields.decisionId fields).trans decided.decisionId.symm
    candidateActId := ⟨congrArg EvidenceFields.candidateActId fields, decided.candidateActId⟩
    counter := congrArg EvidenceFields.monotonicCounter fields
    decisionCounter := (congrArg EvidenceFields.monotonicCounter fields).symm
    state := by
      rw [state, congrArg EvidenceFields.monotonicCounter fields]
      rfl }

end ProtectedEnforcementDomain

/-- A call that returns shows one verdict and has done what the verdict calls for. -/
theorem validateAndIssue_postcondition [Hashlib] {ped : ProtectedEnforcementDomain}
    {candidate : NetworkCandidateAct} {draws : IssueDraws} {world after : World}
    {result : PEDResult} (fresh : world.evidence draws.evidenceId = none)
    (ran : (ped.validateAndIssue draws candidate).run World.exec world = (.ok result, after)) :
    ∃ evidence, Postcondition ped candidate world result after evidence := by
  obtain ⟨denial, first, past, committed, decision, screened, recorded, screening, returned,
    recording, ending⟩ := validateAndIssue_run ran
  have decided := decision_returns returned
  obtain ⟨store, commit, kept, rfl⟩ := record_run recording
  cases denial with
  | none =>
      obtain ⟨-, grants, rfl⟩ := (screen_run screening).resolve_right (by simp)
      obtain ⟨authority, issuing, rfl⟩ := ending
      obtain ⟨activation, reads, activations, prepared, put, rfl⟩ := issue_run issuing
      obtain ⟨free, table⟩ := ActivationStore.table_put put
      subst kept
      have appended : ∃ record : EvidenceRecord, record.decision = first.decision.value ∧
          Appended world candidate _ record { world with
            state := world.state.advanceCounter.2
            evidenceStore := store } :=
        record_appends decided fresh commit rfl rfl
      obtain ⟨evidence, shown, added⟩ := appended
      refine ⟨evidence, ?_, { added with }, ?_, ?_, rfl, rfl⟩
      · exact verdict_of_denial returned (by simpa using grants) rfl rfl rfl rfl shown
      · intro absent
        cases absent
      · intro issued same
        obtain rfl := Option.some.inj same
        refine ⟨grants.2, rfl, activation, ?_, free, ?_⟩
        · exact {
            authorityId := prepared.activationId
            authorityDigest := prepared.authorityDigest
            candidateDigest := ⟨prepared.candidateDigest, prepared.binding.candidateActDigest⟩
            sinkId := ⟨prepared.activationSink,
              prepared.binding.finalitySinkId.trans prepared.activationSink.symm⟩
            nonce := ⟨prepared.activationNonce,
              (congrArg Subtype.val prepared.binding.nonce).trans prepared.activationNonce.symm⟩
            commitment := prepared.binding.commitment
            expiresAt := prepared.activationExpiry
            unused := prepared.activationUnused }
        · have unused : activation.withUsed false = activation := by
            rw [← prepared.activationUnused, ActivationRecord.withUsed_self]
          rwa [unused] at table
  | some denial =>
      obtain ⟨rfl, rfl⟩ := ending
      obtain ⟨-, refuses, rfl⟩ := (screen_run screening).resolve_left (by simp)
      subst kept
      have appended : ∃ record : EvidenceRecord, record.decision = first.decision.value ∧
          Appended screened candidate _ record { screened with
            state := screened.state.advanceCounter.2
            evidenceStore := store } :=
        record_appends decided fresh commit rfl rfl
      obtain ⟨evidence, shown, added⟩ := appended
      refine ⟨evidence, ?_, added, fun _ => ⟨rfl, rfl⟩, ?_, rfl, rfl⟩
      · exact verdict_of_denial returned (by simpa using refuses) rfl rfl rfl rfl shown
      · intro authority absent
        cases absent

namespace Reference

/-- No evidence is stored where the reference run starts. -/
theorem start_evidence (evidenceId : Str) : start.world.evidence evidenceId = none := by
  simp [start, buildReferenceSystem, World.evidence, Persistence.evidenceStore,
    EvidenceStore.table, InMemoryEvidenceStore.table, InMemoryEvidenceStore.get,
    InMemoryEvidenceStore.empty]

/-- The reference candidate is granted its authority. -/
theorem validateAndIssue_postcondition_reference : ∃ decision evidence,
    @Postcondition .checksum start.ped candidate start.world ⟨decision, some authority⟩ issuedWorld
      evidence := by
  obtain ⟨decision, ran⟩ := issued_authority
  rw [issued] at ran
  obtain ⟨evidence, holds⟩ :=
    @validateAndIssue_postcondition .checksum _ _ _ _ _ _ (start_evidence _) ran
  exact ⟨decision, evidence, holds⟩

end Reference
end NetworkFinality
