import NetworkFinality.Model.Ped
import NetworkFinality.Spec.Policy

/-!
# What the enforcement domain establishes before it issues

An authority is put only after the candidate was validated, its nonce reserved, and
evidence of an ALLOW decision committed. `Issued` says so of the events of the call,
with every field of the authority and of its activation record. The put is the last
operation of a call.
-/

namespace NetworkFinality

open Python Semantics Procedure

namespace ProtectedEnforcementDomain

variable {ped : ProtectedEnforcementDomain} {candidate : NetworkCandidateAct} {draws : IssueDraws}
  {now : DateTime} {past : List (Event system)}

/-! ### Screening and the decision -/

theorem screen_none (returned : (ped.screen candidate now).Returns past none) :
    Validated ped.policy candidate now past ∧
      ⟨.reserve candidate.freshness.nonce, true⟩ ∈ past := by
  obtain ⟨validated, checks, rest, checked, reserving, rfl⟩ := returns_bind.mp returned
  cases validated with
  | error denial => simp at reserving
  | ok _ =>
      obtain ⟨fresh, _, _, reserved, outcome, rfl⟩ := returns_bind.mp reserving
      obtain rfl := returns_ask.mp reserved
      cases fresh with
      | false => simp at outcome
      | true =>
          refine ⟨(PolicyConfig.validate_returns (returns_attempt.mp checked)).mono ?_, by simp⟩
          exact List.subset_append_left _ _

/-- What the decision says, and the reads its snapshots come from. -/
structure Decided (candidate : NetworkCandidateAct) (allowed : Bool) (decisionId : Str)
    (decision : NetworkValidationDecision) (past : List (Event system)) : Prop where
  decisionId : decision.decisionId = decisionId
  candidateActId : decision.candidateActId = candidate.candidateActId
  outcome : decision.decision = if allowed then .allow else .deny
  topologyEpoch : ⟨.epoch .topology, (decision.networkState.topologyEpoch : Int)⟩ ∈ past
  configurationEpoch :
    ⟨.epoch .configuration, (decision.networkState.configurationEpoch : Int)⟩ ∈ past
  stateReference :
    ⟨.protectedStateReference, decision.protectedState.stateReference.1⟩ ∈ past

theorem Decided.mono {allowed : Bool} {decisionId : Str} {decision : NetworkValidationDecision}
    {later : List (Event system)} (decided : Decided candidate allowed decisionId decision past)
    (sub : past ⊆ later) : Decided candidate allowed decisionId decision later where
  __ := decided
  topologyEpoch := sub decided.topologyEpoch
  configurationEpoch := sub decided.configurationEpoch
  stateReference := sub decided.stateReference

theorem decision_returns {denial : Option Denial} {decisionId : Str}
    {decision : NetworkValidationDecision}
    (returned : (ped.decision candidate denial decisionId).Returns past decision) :
    Decided candidate denial.isNone decisionId decision past := by
  obtain ⟨attested, attesting, _, -, snapshots, rfl⟩ := returns_bind.mp returned
  simp only [ask, perform, call_bind, done_bind, returns_call, returns_orRaise_bind, pure_eq_done,
    returns_done] at snapshots
  obtain ⟨topology, _, rfl, configuration, _, rfl, topologyEpoch, topologyValid,
    configurationEpoch, configurationValid, reference, _, rfl, counter, _, rfl, stateReference,
    referenceValid, monotonicCounter, counterValid, rfl, rfl⟩ := snapshots
  have topologyRead := nonNegative_ok topologyValid
  have configurationRead := nonNegative_ok configurationValid
  have referenceRead := MinStr.validate_ok referenceValid
  exact ⟨rfl, rfl, rfl, by simp [topologyRead], by simp [configurationRead],
    by simp [referenceRead]⟩

theorem record_returns {decision result : NetworkValidationDecision} {evidence : EvidenceRecord} :
    (record candidate decision draws now).Returns past (evidence, result) ↔
      ∃ reference counter,
        past = [⟨.advanceCounter, counter⟩, ⟨.protectedStateReference, reference⟩,
          ⟨.commitEvidence (evidenceOf candidate decision draws now reference counter),
            .ok evidence⟩] ∧
        result = {
          decision with
          evidenceId := some evidence.evidenceId
          protectedState := { decision.protectedState with monotonicCounter := counter } } := by
  simp [record, ask, perform]
  grind

/-! ### The authority -/

/-- The fields of a binding, and the reads its state comes from. -/
structure Bound (candidate : NetworkCandidateAct) (digest : Str) (evidence : EvidenceRecord)
    (commitment : Str) (binding : AuthorityBinding) (past : List (Event system)) : Prop where
  candidateActDigest : binding.candidateActDigest.value.1 = digest
  evidenceId : binding.evidenceId = evidence.evidenceId
  evidenceDigest : binding.evidenceDigest.value.1 = evidence.digest
  reference : ⟨.protectedStateReference, binding.protectedStateReference⟩ ∈ past
  epochs : ∀ epoch, ⟨.epoch epoch, (binding.epoch epoch : Int)⟩ ∈ past
  nonce : binding.nonce = candidate.freshness.nonce
  sequence : binding.sequence = candidate.freshness.sequence
  finalitySinkId : binding.finalitySinkId = candidate.finalitySink.sinkId
  boundary : binding.effectuationBoundaryId =
    boundaryId candidate.finalitySink.sinkType.value candidate.finalitySink.sinkId
  commitment : binding.activationCommitment.1 = commitment

theorem Bound.mono {digest commitment : Str} {evidence : EvidenceRecord}
    {binding : AuthorityBinding} {later : List (Event system)}
    (bound : Bound candidate digest evidence commitment binding past) (sub : past ⊆ later) :
    Bound candidate digest evidence commitment binding later where
  __ := bound
  reference := sub bound.reference
  epochs := fun epoch => sub (bound.epochs epoch)

theorem bindingOf_returns {digest commitment : Str} {evidence : EvidenceRecord}
    {binding : AuthorityBinding}
    (returned : (bindingOf candidate digest evidence commitment).Returns past binding) :
    Bound candidate digest evidence commitment binding past := by
  simp only [bindingOf, ask, perform, call_bind, done_bind, returns_call, returns_orRaise_bind,
    pure_eq_done, returns_done] at returned
  obtain ⟨candidateActDigest, digestValid, evidenceDigest, evidenceValid, reference, _, rfl,
    topology, _, rfl, configuration, _, rfl, policy, _, rfl, authority, _, rfl, revocation, _, rfl,
    topologyEpoch, topologyValid, configurationEpoch, configurationValid, policyEpoch, policyValid,
    authorityEpoch, authorityValid, revocationEpoch, revocationValid, activationCommitment,
    commitmentValid, rfl, rfl⟩ := returned
  refine ⟨MinStr.validate_ok digestValid, rfl, MinStr.validate_ok evidenceValid, by simp, ?_, rfl,
    rfl, rfl, rfl, MinStr.validate_ok commitmentValid⟩
  have topologyRead := nonNegative_ok topologyValid
  have configurationRead := nonNegative_ok configurationValid
  have policyRead := nonNegative_ok policyValid
  have authorityRead := nonNegative_ok authorityValid
  have revocationRead := nonNegative_ok revocationValid
  intro epoch
  cases epoch with
  | topology => simp [AuthorityBinding.epoch, topologyRead]
  | configuration => simp [AuthorityBinding.epoch, configurationRead]
  | policy => simp [AuthorityBinding.epoch, policyRead]
  | authority => simp [AuthorityBinding.epoch, authorityRead]
  | revocation => simp [AuthorityBinding.epoch, revocationRead]

/-- An authority and its activation record, as the domain prepares them. -/
structure Prepared [Hashlib] (ped : ProtectedEnforcementDomain) (candidate : NetworkCandidateAct)
    (evidence : EvidenceRecord) (draws : IssueDraws) (now : DateTime)
    (authority : NetworkFinalityAuthority) (activation : ActivationRecord)
    (past : List (Event system)) : Prop where
  authorityId : authority.authorityId = draws.authorityId
  candidateActId : authority.candidateActId = candidate.candidateActId
  decisionId : authority.decisionId = draws.decisionId
  scope : authority.scope = scopeOf candidate
  binding : Bound candidate activation.candidateDigest evidence activation.activationCommitment
    authority.binding past
  issuedAt : authority.lifetime.issuedAt = now
  expiresAt : now.add (min ped.policy.authorityTtl (max 0 (candidate.expiresAt.sub now))) =
    .ok authority.lifetime.expiresAt
  issuer : ∃ payload, unsignedAuthorityPayload authority = .ok payload ∧
    authority.issuer = ⟨ped.pedId, ped.signer.keyId, ped.signer.algorithm, ped.signer.sign payload⟩
  authorityDigest : authorityDigest authority = .ok activation.authorityDigest
  candidateDigest : candidateDigest candidate = .ok activation.candidateDigest
  activationId : activation.authorityId = authority.authorityId
  activationSink : activation.sinkId = candidate.finalitySink.sinkId
  activationNonce : activation.nonce = candidate.freshness.nonce
  activationExpiry : activation.expiresAt = authority.lifetime.expiresAt
  activationUnused : activation.used = false

theorem Prepared.mono [Hashlib] {evidence : EvidenceRecord}
    {authority : NetworkFinalityAuthority} {activation : ActivationRecord}
    {later : List (Event system)}
    (prepared : Prepared ped candidate evidence draws now authority activation past)
    (sub : past ⊆ later) :
    Prepared ped candidate evidence draws now authority activation later where
  __ := prepared
  binding := prepared.binding.mono sub

theorem prepare_returns [Hashlib] {evidence : EvidenceRecord}
    {authority : NetworkFinalityAuthority} {activation : ActivationRecord}
    (returned : (ped.prepare candidate evidence draws now).Returns past (authority, activation)) :
    Prepared ped candidate evidence draws now authority activation past := by
  simp only [prepare, returns_orRaise_bind] at returned
  obtain ⟨digest, digested, expiresAt, added, returned⟩ := returned
  obtain ⟨binding, reads, _, bound, rest, rfl⟩ := returns_bind.mp returned
  simp only [returns_orRaise_bind, pure_eq_done, returns_done, Prod.mk.injEq] at rest
  obtain ⟨payload, signed, authorityDigest, authorityDigested, rfl, rfl, rfl⟩ := rest
  have fields := bindingOf_returns bound
  rw [List.append_nil]
  exact ⟨rfl, rfl, rfl, rfl, { fields with }, rfl, added, ⟨payload, signed, rfl⟩,
    authorityDigested, digested, rfl, rfl, rfl, rfl, rfl⟩

/-! ### What each part performs -/

theorem attested_state {ok : Bool} : OnlyState (ped.attested ok) := by
  cases ok with
  | true => exact uses_done
  | false => exact Uses.bind PolicyConfig.requiresAttestation_state fun _ => uses_done

theorem decision_state {denial : Option Denial} {decisionId : Str} :
    OnlyState (ped.decision candidate denial decisionId) := by
  refine Uses.bind attested_state fun initiatorAttested => ?_
  refine Uses.bind (state_ask rfl) fun topologyEpoch => ?_
  refine Uses.bind (state_ask rfl) fun configurationEpoch => ?_
  refine Uses.bind uses_orRaise fun topologyEpoch => ?_
  refine Uses.bind uses_orRaise fun configurationEpoch => ?_
  refine Uses.bind (state_ask rfl) fun stateReference => ?_
  refine Uses.bind (state_ask rfl) fun monotonicCounter => ?_
  exact Uses.bind uses_orRaise fun _ => Uses.bind uses_orRaise fun _ => uses_done

theorem bindingOf_state {digest commitment : Str} {evidence : EvidenceRecord} :
    OnlyState (bindingOf candidate digest evidence commitment) := by
  refine Uses.bind uses_orRaise fun candidateActDigest => ?_
  refine Uses.bind uses_orRaise fun evidenceDigest => ?_
  refine Uses.bind (state_ask rfl) fun reference => ?_
  refine Uses.bind (state_ask rfl) fun topologyEpoch => ?_
  refine Uses.bind (state_ask rfl) fun configurationEpoch => ?_
  refine Uses.bind (state_ask rfl) fun policyEpoch => ?_
  refine Uses.bind (state_ask rfl) fun authorityEpoch => ?_
  refine Uses.bind (state_ask rfl) fun revocationEpoch => ?_
  -- What has been read is validated before the binding is made.
  refine Uses.bind uses_orRaise fun _ => Uses.bind uses_orRaise fun _ => ?_
  refine Uses.bind uses_orRaise fun _ => Uses.bind uses_orRaise fun _ => ?_
  exact Uses.bind uses_orRaise fun _ => Uses.bind uses_orRaise fun _ => uses_done

theorem prepare_state [Hashlib] {evidence : EvidenceRecord} :
    OnlyState (ped.prepare candidate evidence draws now) := by
  refine Uses.bind uses_orRaise fun digest => Uses.bind uses_orRaise fun expiresAt => ?_
  refine Uses.bind bindingOf_state fun binding => Uses.bind uses_orRaise fun payload => ?_
  exact Uses.bind uses_orRaise fun authorityDigest => uses_done

theorem decision_reads {denial : Option Denial} {decisionId : Str} :
    OnlyReads (ped.decision candidate denial decisionId) := decision_state.reads

theorem prepare_reads [Hashlib] {evidence : EvidenceRecord} :
    OnlyReads (ped.prepare candidate evidence draws now) := prepare_state.reads

theorem screen_state : (ped.screen candidate now).Uses fun op : Op =>
    op.readsState = true ∨ op = .reserve candidate.freshness.nonce := by
  apply Uses.bind (PolicyConfig.validate_state.mono fun op reads => .inl reads).attempt
  intro validated
  cases validated with
  | error denial => exact uses_done
  | ok _ => exact Uses.bind (uses_perform.mpr (.inr rfl)) fun _ => uses_done

theorem screen_uses : (ped.screen candidate now).Uses fun op : Op =>
    op.isWrite = false ∨ op = .reserve candidate.freshness.nonce :=
  screen_state.mono fun _ => Or.imp_left Op.isWrite_of_readsState

theorem record_uses {decision : NetworkValidationDecision} :
    (record candidate decision draws now).Uses fun op : Op =>
      op.isWrite = false ∨ op = .advanceCounter ∨
        ∃ fields, op = .commitEvidence fields ∧ fields.evidenceId = draws.evidenceId := by
  apply Uses.bind (uses_perform.mpr (.inr (.inl rfl)))
  intro counter
  apply Uses.bind (uses_perform.mpr (.inl rfl))
  intro reference
  apply Uses.bind (uses_perform.mpr (.inr (.inr ⟨_, rfl, rfl⟩)))
  intro committed
  exact Uses.bind uses_orRaise fun _ => uses_done

theorem issue_uses [Hashlib] {evidence : EvidenceRecord} :
    (ped.issue candidate evidence draws now).Uses fun op : Op =>
      op.isWrite = false ∨ ∃ activation, op = .putActivation activation := by
  apply Uses.bind (prepare_reads.mono fun op read => .inl read)
  rintro ⟨authority, activation⟩
  apply Uses.bind (uses_perform.mpr (.inr ⟨activation, rfl⟩))
  intro stored
  exact Uses.bind uses_orRaise fun _ => uses_done

/-- Operations other than the put of an activation record. -/
def BeforePut (op : Op) : Prop := ∀ activation, op ≠ .putActivation activation

theorem beforePut_of_read {op : Op} (read : op.isWrite = false) : BeforePut op := by
  rintro activation rfl
  cases read

theorem screen_beforePut : (ped.screen candidate now).Uses BeforePut := by
  apply screen_uses.mono
  rintro op (read | rfl)
  · exact beforePut_of_read read
  · rintro activation ⟨⟩

theorem record_beforePut {decision : NetworkValidationDecision} :
    (record candidate decision draws now).Uses BeforePut := by
  apply record_uses.mono
  rintro op (read | rfl | ⟨fields, rfl, -⟩)
  · exact beforePut_of_read read
  · rintro activation ⟨⟩
  · rintro activation ⟨⟩

/-! ### The whole call -/

/-- What has happened in a call that has put an activation record and returns. -/
structure Issued [Hashlib] (ped : ProtectedEnforcementDomain) (draws : IssueDraws)
    (candidate : NetworkCandidateAct) (now : DateTime) (decision : NetworkValidationDecision)
    (evidence : EvidenceRecord) (authority : NetworkFinalityAuthority)
    (activation : ActivationRecord) (past : List (Event system)) : Prop where
  clock : ⟨.clock, now⟩ ∈ past
  validated : Validated ped.policy candidate now past
  reserved : ⟨.reserve candidate.freshness.nonce, true⟩ ∈ past
  decided : Decided candidate true draws.decisionId decision past
  committed : ∃ reference counter, ⟨.protectedStateReference, reference⟩ ∈ past ∧
    ⟨.commitEvidence (evidenceOf candidate decision draws now reference counter), .ok evidence⟩ ∈
      past
  decisionEvidence : decision.evidenceId = some evidence.evidenceId
  prepared : Prepared ped candidate evidence draws now authority activation past
  put : ⟨.putActivation activation, .ok ()⟩ ∈ past

/-- A put follows the preparation of the record it puts. -/
private theorem issue_of_put [Hashlib] {α : Type} {evidence : EvidenceRecord}
    {further : NetworkFinalityAuthority → Program α} {rest : Program α}
    {activation : ActivationRecord} (quiet : ∀ authority, (further authority).Uses BeforePut)
    (path : (ped.issue candidate evidence draws now >>= further).Path past rest)
    (put : ⟨.putActivation activation, .ok ()⟩ ∈ past) :
    ∃ authority reads later, past = reads ++ ⟨.putActivation activation, .ok ()⟩ :: later ∧
      Prepared ped candidate evidence draws now authority activation reads ∧
      (further authority).Path later rest := by
  have foreign : ¬ BeforePut (.putActivation activation) := fun before => before activation rfl
  rw [issue, Procedure.bind_assoc] at path
  obtain ⟨⟨authority, record⟩, reads, past₁, prepared, storing, rfl, put₁⟩ :=
    path_bind_of_event (prepare_reads.mono fun _ => beforePut_of_read) path put foreign
  rcases path_call_iff.mp storing with ⟨rfl, -⟩ | ⟨stored, later, rfl, continued⟩
  · cases put₁
  -- What follows the put performs none, so the event is the answer to this one.
  have follows : ((orRaise stored >>= fun _ => pure authority) >>= further).Uses BeforePut :=
    Uses.bind (Uses.bind uses_orRaise fun _ => uses_done) quiet
  rcases List.mem_cons.mp put₁ with same | later
  · cases same
    exact ⟨authority, reads, later, rfl, prepare_returns prepared, continued⟩
  · exact absurd (follows.events continued _ later) foreign

/-- A put is the last operation of a call, after everything that `Issued` names. -/
theorem issued_of_put [Hashlib] {rest : Program PEDResult} {activation : ActivationRecord}
    (path : (ped.validateAndIssue draws candidate).Path past rest)
    (put : ⟨.putActivation activation, .ok ()⟩ ∈ past) :
    ∃ now decision evidence authority,
      Issued ped draws candidate now decision evidence authority activation past ∧
        rest = .done ⟨decision, some authority⟩ := by
  have foreign : ¬ BeforePut (.putActivation activation) := fun before => before activation rfl
  obtain ⟨now, clock, past₁, clocked, screening, rfl, put₁⟩ :=
    path_bind_of_event (uses_perform.mpr (by rintro activation ⟨⟩)) path put foreign
  obtain ⟨denial, screen, past₂, screened, deciding, rfl, put₂⟩ :=
    path_bind_of_event screen_beforePut screening put₁ foreign
  obtain ⟨first, snapshots, past₃, decided, recording, rfl, put₃⟩ :=
    path_bind_of_event (decision_reads.mono fun _ => beforePut_of_read) deciding put₂ foreign
  obtain ⟨⟨evidence, decision⟩, records, past₄, recorded, issuing, rfl, put₄⟩ :=
    path_bind_of_event record_beforePut recording put₃ foreign
  obtain rfl := returns_ask.mp clocked
  cases denial with
  | some denial =>
      obtain ⟨rfl, -⟩ := path_done_iff.mp issuing
      cases put₄
  | none =>
      obtain ⟨authority, reads, later, rfl, prepared, ending⟩ :=
        issue_of_put (fun _ => uses_done) issuing put₄
      obtain ⟨rfl, ended⟩ := path_done_iff.mp ending
      obtain ⟨validated, reserved⟩ := screen_none screened
      obtain ⟨reference, counter, rfl, rfl⟩ := record_returns.mp recorded
      have snapshot := decision_returns decided
      refine ⟨now, _, evidence, authority, ?_, ended⟩
      exact {
        clock := by simp
        validated := validated.mono fun event member => by simp [member]
        reserved := by simp [reserved]
        decided := { snapshot.mono fun event member => by simp [member] with }
        committed := ⟨reference, counter, by simp, by simp [evidenceOf]⟩
        decisionEvidence := rfl
        prepared := prepared.mono fun event member => by simp [member]
        put := by simp }

/-- A call that returns has put an activation record, or returns a denial. -/
theorem validateAndIssue_returns [Hashlib] {result : PEDResult}
    (returned : (ped.validateAndIssue draws candidate).Returns past result) :
    (result.decision.decision = .allow ∧
        ∃ activation, ⟨.putActivation activation, .ok ()⟩ ∈ past) ∨
      (result.decision.decision = .deny ∧ result.authority = none) := by
  obtain ⟨now, clock, past₁, -, screening, rfl⟩ := returns_bind.mp returned
  obtain ⟨denial, screen, past₂, -, deciding, rfl⟩ := returns_bind.mp screening
  obtain ⟨first, snapshots, past₃, decided, recording, rfl⟩ := returns_bind.mp deciding
  obtain ⟨⟨evidence, decision⟩, records, past₄, recorded, issuing, rfl⟩ :=
    returns_bind.mp recording
  have outcome := (decision_returns decided).outcome
  obtain ⟨reference, counter, rfl, rfl⟩ := record_returns.mp recorded
  cases denial with
  | some denial =>
      obtain ⟨-, rfl⟩ := returns_done.mp issuing
      exact .inr ⟨outcome, rfl⟩
  | none =>
      obtain ⟨authority, issue, past₅, issued, ending, rfl⟩ := returns_bind.mp issuing
      obtain ⟨-, rfl⟩ := returns_done.mp ending
      obtain ⟨⟨authority', activation⟩, reads, past₆, -, storing, rfl⟩ := returns_bind.mp issued
      obtain ⟨stored, past₇, past₈, put, checked, rfl⟩ := returns_bind.mp storing
      obtain rfl := returns_ask.mp put
      obtain ⟨⟨⟩, rfl, -⟩ := returns_orRaise_bind.mp checked
      exact .inl ⟨outcome, activation, by simp⟩

/-- The policy accepts the candidate at the clock and the protected state that a call reads. -/
def Accepts (ped : ProtectedEnforcementDomain) (candidate : NetworkCandidateAct)
    (past : List (Event system)) : Prop :=
  ∃ now checks later, past = ⟨.clock, now⟩ :: (checks ++ later) ∧
    (ped.policy.validate candidate now).Returns checks ()

/-- A call that allows its candidate has had it accepted by the policy. -/
theorem accepts_of_allow [Hashlib] {result : PEDResult}
    (returned : (ped.validateAndIssue draws candidate).Returns past result)
    (allowed : result.decision.decision = .allow) : ped.Accepts candidate past := by
  obtain ⟨now, clock, past₁, clocked, screening, rfl⟩ := returns_bind.mp returned
  obtain ⟨denial, screen, past₂, screened, deciding, rfl⟩ := returns_bind.mp screening
  obtain ⟨first, snapshots, past₃, decided, recording, rfl⟩ := returns_bind.mp deciding
  obtain ⟨⟨evidence, decision⟩, records, past₄, recorded, issuing, rfl⟩ :=
    returns_bind.mp recording
  obtain rfl := returns_ask.mp clocked
  cases denial with
  | some denial =>
      obtain ⟨-, rfl⟩ := returns_done.mp issuing
      have outcome := (decision_returns decided).outcome
      obtain ⟨reference, counter, rfl, rfl⟩ := record_returns.mp recorded
      rw [outcome] at allowed
      cases allowed
  | none =>
      obtain ⟨validated, checks, rest, checked, reserving, rfl⟩ := returns_bind.mp screened
      cases validated with
      | error denial => simp at reserving
      | ok _ =>
          refine ⟨now, checks, rest ++ (snapshots ++ (records ++ past₄)), ?_,
            returns_attempt.mp checked⟩
          rw [List.append_assoc, List.singleton_append]

/-- A call that returns an authority has issued it. -/
theorem issued_of_returns [Hashlib] {decision : NetworkValidationDecision}
    {authority : NetworkFinalityAuthority}
    (returned : (ped.validateAndIssue draws candidate).Returns past ⟨decision, some authority⟩) :
    ∃ now evidence activation,
      Issued ped draws candidate now decision evidence authority activation past := by
  rcases validateAndIssue_returns returned with ⟨-, activation, put⟩ | ⟨-, absent⟩
  · obtain ⟨now, _, evidence, _, issued, same⟩ := issued_of_put returned put
    cases same
    exact ⟨now, evidence, activation, issued⟩
  · cases absent

/-- The writes an issuing call may perform. -/
def Issues (draws : IssueDraws) (candidate : NetworkCandidateAct) : Op → Prop
  | .advanceCounter => True
  | .reserve nonce => nonce = candidate.freshness.nonce
  | .commitEvidence fields => fields.evidenceId = draws.evidenceId
  | .putActivation _ => True
  | op => op.isWrite = false

private theorem issues_of_read {op : Op} (read : op.isWrite = false) : Issues draws candidate op := by
  cases op <;> first | exact read | cases read

theorem validateAndIssue_uses [Hashlib] :
    (ped.validateAndIssue draws candidate).Uses (Issues draws candidate) := by
  apply Uses.bind (reads_ask rfl |>.mono fun _ => issues_of_read)
  intro now
  apply Uses.bind
  · apply screen_uses.mono
    rintro op (read | rfl)
    · exact issues_of_read read
    · rfl
  intro denial
  apply Uses.bind (decision_reads.mono fun _ => issues_of_read)
  intro first
  apply Uses.bind
  · apply record_uses.mono
    rintro op (read | rfl | ⟨fields, rfl, named⟩)
    · exact issues_of_read read
    · trivial
    · exact named
  rintro ⟨evidence, decision⟩
  cases denial with
  | some denial => exact uses_done
  | none =>
      apply Uses.bind
      · apply issue_uses.mono
        rintro op (read | ⟨activation, rfl⟩)
        · exact issues_of_read read
        · trivial
      · exact fun _ => uses_done

/-- An operation that commits evidence. -/
def Commits (op : Op) : Prop := ∃ fields, op = .commitEvidence fields

/-- An operation of the recording: it takes a counter or commits evidence. -/
def Records (op : Op) : Prop := op = .advanceCounter ∨ Commits op

private theorem not_records_of_read {op : Op} (read : op.isWrite = false) : ¬ Records op := by
  rintro (rfl | ⟨fields, rfl⟩)
  · cases read
  · cases read

theorem screen_not_records : (ped.screen candidate now).Uses fun op => ¬ Records op := by
  apply screen_uses.mono
  rintro op (read | rfl)
  · exact not_records_of_read read
  · rintro (impossible | ⟨fields, impossible⟩) <;> cases impossible

theorem issue_not_records [Hashlib] {evidence : EvidenceRecord} :
    (ped.issue candidate evidence draws now).Uses fun op => ¬ Records op := by
  apply issue_uses.mono
  rintro op (read | ⟨activation, rfl⟩)
  · exact not_records_of_read read
  · rintro (impossible | ⟨fields, impossible⟩) <;> cases impossible

/-- What the recording performs at most once, the call does. -/
theorem validateAndIssue_single [Hashlib] {key : Op → Prop}
    (recording : ∀ op, key op → Records op)
    (once : ∀ decision now, (record candidate decision draws now).Single key) :
    (ped.validateAndIssue draws candidate).Single key := by
  have quiet : ∀ op, ¬ Records op → ¬ key op := fun op other isKey => other (recording op isKey)
  apply Uses.bind_single (reads_ask rfl |>.mono fun op read => quiet op (not_records_of_read read))
  intro now
  apply Uses.bind_single (screen_not_records.mono quiet)
  intro denial
  apply Uses.bind_single (decision_reads.mono fun op read => quiet op (not_records_of_read read))
  intro first
  apply (once first now).bind
  rintro ⟨evidence, decision⟩
  cases denial with
  | some denial => exact uses_done
  | none => exact Uses.bind (issue_not_records.mono quiet) fun _ => uses_done

/-- A call commits at most one evidence record. -/
theorem validateAndIssue_commits_once [Hashlib] :
    (ped.validateAndIssue draws candidate).Single Commits := by
  apply validateAndIssue_single fun op commits => .inr commits
  intro decision now
  apply Uses.bind_single (uses_perform.mpr (by rintro ⟨fields, ⟨⟩⟩))
  intro counter
  apply Uses.bind_single (uses_perform.mpr (by rintro ⟨fields, ⟨⟩⟩))
  intro reference
  exact Single.perform.bind fun _ => Uses.bind uses_orRaise fun _ => uses_done

/-- A call takes at most one counter. -/
theorem validateAndIssue_advances_once [Hashlib] :
    (ped.validateAndIssue draws candidate).Single fun op : Op => op = .advanceCounter := by
  apply validateAndIssue_single fun op advances => .inl advances
  intro decision now
  apply Single.perform.bind
  intro counter
  apply Uses.bind (uses_perform.mpr nofun)
  intro reference
  exact Uses.bind (uses_perform.mpr nofun) fun _ => Uses.bind uses_orRaise fun _ => uses_done

/-- A call that is about to commit evidence has taken the counter it records. -/
theorem commit_advanced [Hashlib] {fields : EvidenceFields}
    {next : Op.Answer (.commitEvidence fields) → Program PEDResult}
    (path : (ped.validateAndIssue draws candidate).Path past (.call (.commitEvidence fields) next)) :
    ⟨.advanceCounter, fields.monotonicCounter⟩ ∈ past := by
  have commits : Commits (.commitEvidence fields) := ⟨fields, rfl⟩
  have recording : ¬ ¬ Records (.commitEvidence fields) := not_not.mpr (.inr commits)
  obtain ⟨now, clock, past₁, -, screening, rfl⟩ := path_bind_of_call
    (reads_ask rfl |>.mono fun _ => not_records_of_read) path recording
  obtain ⟨denial, screen, past₂, -, deciding, rfl⟩ :=
    path_bind_of_call screen_not_records screening recording
  obtain ⟨first, snapshots, past₃, -, recorded, rfl⟩ := path_bind_of_call
    (decision_reads.mono fun _ => not_records_of_read) deciding recording
  rcases path_bind recorded with ⟨inside, within, same, unfinished⟩ | ⟨result, _, past₄, -, issuing, rfl⟩
  · -- The commit is inside the recording, which takes the counter first.
    simp only [record, ask, perform, call_bind, done_bind, path_call_iff] at within
    rcases within with ⟨rfl, rfl⟩ | ⟨counter, rest, rfl, within⟩
    · cases same
    rcases within with ⟨rfl, rfl⟩ | ⟨reference, rest, rfl, within⟩
    · cases same
    rcases within with ⟨rfl, rfl⟩ | ⟨outcome, rest, rfl, within⟩
    · cases same
      simp [evidenceOf]
    · cases outcome with
      | error reason =>
          obtain ⟨-, rfl⟩ := path_exit_iff.mp within
          cases same
      | ok evidence =>
          obtain ⟨-, rfl⟩ := path_done_iff.mp within
          exact absurd rfl (unfinished _)
  · -- Issuing commits no evidence.
    obtain ⟨evidence, decision⟩ := result
    cases denial with
    | some denial => cases (path_done_iff.mp issuing).2
    | none =>
        obtain ⟨authority, _, past₅, -, ending, -⟩ :=
          path_bind_of_call issue_not_records issuing recording
        cases (path_done_iff.mp ending).2

end ProtectedEnforcementDomain
end NetworkFinality
