import NetworkFinality.Safety.SinkAtomicity
import NetworkFinality.Spec.Issue
import NetworkFinality.Spec.Permit

/-!
# The domain and the sink agree

An authority stands in a world whose stores and state still are what it was issued
on. It stands where it is issued, and no call of other identifiers takes that away.
Where it stands, unconsumed and unexpired, its sink permits every effect that its
candidate asked for: each guard finds what the domain has put there.
-/

namespace NetworkFinality

open Python Semantics Procedure

/-- The stores and the state are what the authority was issued on. -/
structure Standing (evidence : EvidenceRecord) (authority : NetworkFinalityAuthority)
    (activation : ActivationRecord) (world : World) : Prop where
  evidence : ∃ stored, world.evidence authority.binding.evidenceId = some stored ∧
    stored.SameInstant evidence
  activation : world.activations.issued authority.authorityId = some (activation.withUsed false)
  state : BindsState authority.binding world

/-- The proposed effect is what the candidate asked for, in at most its duration. -/
structure Conforms [Hashlib] (candidate : NetworkCandidateAct) (effect : ProposedEffect) :
    Prop where
  effectType : effect.effectType = candidate.requestedEffect.effectType
  resourceType : effect.resourceType = candidate.resourceScope.resourceType
  resourceIds : effect.resourceIds.1.toFinset = candidate.resourceScope.resourceIds.1.toFinset
  parameters : digestValue effect.parametersValue effect.parametersDigest.algorithm =
    .ok effect.parametersDigest.value
  parametersDigest : effect.parametersDigest.value =
    candidate.requestedEffect.parametersDigest.value
  duration : ∀ maximum, candidate.requestedEffect.durationSeconds = some maximum →
    ∀ duration, effect.durationSeconds = some duration → duration ≤ maximum

section

variable [Hashlib] {ped : ProtectedEnforcementDomain} {draws : IssueDraws}
  {candidate : NetworkCandidateAct} {world : World} {decision : NetworkValidationDecision}
  {evidence : EvidenceRecord} {authority : NetworkFinalityAuthority}
  {activation : ActivationRecord} {past : List (Event system)}
  (issued : ped.IssuedIn draws candidate world decision evidence authority activation past)

include issued

/-- The identifier under which the evidence of an authority is committed. -/
theorem bound_evidenceId : authority.binding.evidenceId = draws.evidenceId := by
  obtain ⟨counter, fields⟩ := issued.fields
  rw [issued.issued.prepared.binding.evidenceId]
  exact congrArg (·.evidenceId) fields

/-- What a domain has signed, a sink with its verifier accepts until it expires. -/
private theorem authenticated {sink : NetworkFinalitySink} {request : SinkRequest} {now : DateTime}
    (verified : ped.signer.VerifiedBy sink.verifier) (presented : request.authority = some authority)
    (unexpired : now < authority.lifetime.expiresAt) :
    Authenticated sink request authority now := by
  obtain ⟨payload, signed, issuer⟩ := issued.issued.prepared.issuer
  refine ⟨presented, ?_, ?_, ⟨payload, signed, ?_⟩, ?_⟩
  · rw [issuer, verified.keyId]
  · rw [issuer, verified.algorithm]
  · rw [issuer, verified.accepts]
  · rw [DateTime.lt_iff] at unexpired
    rw [DateTime.le_iff]
    omega

/-- Stored evidence of an authority matches it. -/
private theorem evidenceMatches {stored : EvidenceRecord} (agrees : stored.SameInstant evidence) :
    EvidenceMatches candidate authority stored := by
  have prepared := issued.issued.prepared
  obtain ⟨counter, fields⟩ := issued.fields
  refine ⟨?_, prepared.candidateActId.symm, ?_, ?_, ?_, ?_⟩
  · rw [prepared.binding.candidateActDigest]
    exact prepared.candidateDigest
  · rw [agrees.digest, prepared.binding.evidenceDigest]
  · have decision : stored.decision = evidence.decision := congrArg (·.decision) agrees.fields
    rw [decision, congrArg (·.decision) fields]
    exact congrArg Decision.value issued.issued.decided.outcome
  · have act : stored.candidateActId = evidence.candidateActId :=
      congrArg (·.candidateActId) agrees.fields
    exact act.trans (congrArg (·.candidateActId) fields)
  · have decisionId : stored.decisionId = evidence.decisionId :=
      congrArg (·.decisionId) agrees.fields
    rw [decisionId, prepared.decisionId]
    exact congrArg (·.decisionId) fields

/-- The activation record of an authority matches it. -/
private theorem activationMatches {sink : NetworkFinalitySink} {now : DateTime}
    {read : ActivationRecord} (same : read.withUsed false = activation.withUsed false)
    (sinkId : sink.sinkId = candidate.finalitySink.sinkId)
    (unexpired : now < authority.lifetime.expiresAt) :
    ActivationMatches sink authority now authority.binding.candidateActDigest.value read := by
  have prepared := issued.issued.prepared
  have expiresAt : read.expiresAt = activation.expiresAt := congrArg (·.expiresAt) same
  have sink : read.sinkId = activation.sinkId := congrArg (·.sinkId) same
  have authorityDigest : read.authorityDigest = activation.authorityDigest :=
    congrArg (·.authorityDigest) same
  have candidateDigest : read.candidateDigest = activation.candidateDigest :=
    congrArg (·.candidateDigest) same
  have commitment : read.activationCommitment = activation.activationCommitment :=
    congrArg (·.activationCommitment) same
  refine ⟨?_, ?_, ?_, ?_, ?_⟩
  · rw [expiresAt, prepared.activationExpiry, DateTime.le_iff]
    rw [DateTime.lt_iff] at unexpired
    omega
  · rw [sink, prepared.activationSink, sinkId]
  · rw [authorityDigest, prepared.authorityDigest]
  · rw [candidateDigest, prepared.binding.candidateActDigest]
  · rw [commitment, prepared.binding.commitment]

/-- The sink a candidate names is the one its authority is bound to. -/
private theorem sinkMatches {sink : NetworkFinalitySink}
    (sinkId : sink.sinkId = candidate.finalitySink.sinkId)
    (sinkType : sink.sinkType = candidate.finalitySink.sinkType.value) :
    SinkMatches sink candidate authority := by
  have binding := issued.issued.prepared.binding
  refine ⟨?_, sinkId.symm, ?_, sinkType.symm⟩
  · rw [binding.finalitySinkId, sinkId]
  · rw [binding.boundary, sinkId, sinkType]

/-- An effect that conforms to a candidate is within the scope of its authority. -/
private theorem scopeMatches {request : SinkRequest} {read : ActivationRecord}
    (same : read.withUsed false = activation.withUsed false) (given : request.candidate = candidate)
    (conforms : Conforms candidate request.proposedEffect) :
    ScopeMatches request authority read := by
  have prepared := issued.issued.prepared
  have nonce : read.nonce = activation.nonce := congrArg (·.nonce) same
  subst given
  refine ⟨?_, ?_, prepared.binding.sequence, ?_, ?_, ?_, ?_, ?_, ?_, ?_, conforms.parameters,
    ?_, ?_⟩
  · rw [prepared.binding.nonce]
  · rw [nonce, prepared.activationNonce]
  · rw [prepared.scope]
    rfl
  · rw [prepared.scope, conforms.resourceType]
    rfl
  · rw [prepared.scope, conforms.resourceIds]
    rfl
  · rw [prepared.scope]
    rfl
  · rw [prepared.scope]
    rfl
  · rw [prepared.scope]
    rfl
  · rw [prepared.scope, conforms.effectType]
    rfl
  · rw [prepared.scope, conforms.parametersDigest]
    rfl
  · rw [prepared.scope]
    exact conforms.duration

/-- Where an authority stands, is not consumed and has not expired, the sink it names
permits what its candidate asked for. -/
theorem permitted_of_standing {later : World}
    (standing : Standing evidence authority activation later)
    (unused : ¬ later.activations.Used authority.authorityId)
    (unexpired : later.clock < authority.lifetime.expiresAt) {sink : NetworkFinalitySink}
    (verified : ped.signer.VerifiedBy sink.verifier)
    (sinkId : sink.sinkId = candidate.finalitySink.sinkId)
    (sinkType : sink.sinkType = candidate.finalitySink.sinkType.value) {request : SinkRequest}
    (given : request.candidate = candidate) (presented : request.authority = some authority)
    (conforms : Conforms candidate request.proposedEffect) :
    ∃ stored read, Permitted later sink request authority stored read := by
  obtain ⟨stored, held, agrees⟩ := standing.evidence
  obtain ⟨record, present, same⟩ := Option.map_eq_some_iff.mp standing.activation
  obtain ⟨read, got, same'⟩ := ActivationStore.get_some present
  have matching : read.withUsed false = activation.withUsed false := same'.trans same
  have flag : record.used = false := by
    cases used : record.used with
    | false => rfl
    | true => exact absurd ⟨record, present, used⟩ unused
  refine ⟨stored, read, ⟨?_, ?_, ?_, ?_, ?_⟩, EvidenceStore.get_some held, got, ?_,
    standing.state.reference, standing.state.epochs⟩
  · exact authenticated issued verified presented unexpired
  · rw [given]
    exact evidenceMatches issued agrees
  · exact activationMatches issued matching sinkId unexpired
  · rw [given]
    exact sinkMatches issued sinkId sinkType
  · exact scopeMatches issued matching given conforms
  · rw [ActivationStore.isUsed_some present, flag]

end

/-! ### Where an authority stands -/

section

variable [Hashlib] {ped : ProtectedEnforcementDomain} {draws : IssueDraws}
  {candidate : NetworkCandidateAct} {world final : World} {decision : NetworkValidationDecision}
  {evidence : EvidenceRecord} {authority : NetworkFinalityAuthority}
  {activation : ActivationRecord} {past : List (Event system)}

/-- An operation keeps the state an authority is bound to. -/
private theorem bindsState_kept {binding : AuthorityBinding} (op : Op)
    (binds : BindsState binding world) : BindsState binding (World.exec op world).2 := by
  refine ⟨?_, fun epoch => ?_⟩
  · rw [← binds.reference]
    exact World.observes.stable .protectedStateReference rfl op world
  · rw [← binds.epochs epoch]
    exact World.observes.stable (.epoch epoch) rfl op world

/-- The evidence a call has committed is stored when the call has ended. -/
private theorem evidence_after {rest : Program PEDResult}
    (path : (ped.validateAndIssue draws candidate).Path past rest)
    (answered : Answered World.exec world past final)
    (committed : ⟨.commitEvidence evidence.toEvidenceFields, .ok evidence⟩ ∈ past) :
    ∃ stored, final.evidence evidence.evidenceId = some stored ∧ stored.SameInstant evidence := by
  obtain ⟨before, after, rfl⟩ := List.append_of_mem committed
  obtain ⟨middle, -, answer, later⟩ := (answered_append World.exec).mp answered
  obtain ⟨-, -, stored, agrees, held⟩ := World.exec_commit middle answer.symm
  refine ⟨stored, ?_, agrees⟩
  -- The call commits once, so nothing after this commit touches the record.
  have single : (ped.validateAndIssue draws candidate).Single ProtectedEnforcementDomain.Commits :=
    ProtectedEnforcementDomain.validateAndIssue_commits_once
  obtain ⟨-, quiet⟩ := single.around path rfl ⟨_, rfl⟩
  refine later.keeps World.exec
    (fun state => state.evidence evidence.evidenceId = some stored) ?_ held
  intro event member state kept
  rw [World.exec_evidence_other, kept]
  intro fields commits
  exact absurd ⟨fields, commits⟩ (quiet event member)

/-- The activation record a call has put is issued, and not consumed, when the call has
ended. -/
private theorem activation_after {rest : Program PEDResult}
    (path : (ped.validateAndIssue draws candidate).Path past rest)
    (answered : Answered World.exec world past final)
    (put : ⟨.putActivation activation, .ok ()⟩ ∈ past) :
    final.activations.issued activation.authorityId = some (activation.withUsed false) ∧
      ¬ final.activations.Used activation.authorityId := by
  have permitted := ProtectedEnforcementDomain.validateAndIssue_uses.events path
  obtain ⟨before, after, rfl⟩ := List.append_of_mem put
  obtain ⟨middle, -, answer, later⟩ := (answered_append World.exec).mp answered
  obtain ⟨-, stored⟩ := World.exec_put middle answer.symm
  refine later.keeps World.exec (fun state =>
    state.activations.issued activation.authorityId = some (activation.withUsed false) ∧
      ¬ state.activations.Used activation.authorityId) ?_ ⟨?_, ?_⟩
  · rintro event member state ⟨issued, unused⟩
    have step := World.exec_activations event.op state
    refine ⟨step.keeps issued, fun used => ?_⟩
    rcases step.used_origin used with earlier | consumes
    · exact unused earlier
    · have writes := permitted event (by simp [member])
      rw [congrArg Event.op consumes] at writes
      cases writes
  · simp [ActivationTable.issued, stored]
  · rintro ⟨record, present, used⟩
    obtain rfl := Option.some.inj (stored.symm.trans present)
    cases used

/-- An authority stands where it is issued, and is not consumed. -/
theorem standing_of_issued {rest : Program PEDResult}
    (path : (ped.validateAndIssue draws candidate).Path past rest)
    (answered : Answered World.exec world past final)
    (issued : ped.IssuedIn draws candidate world decision evidence authority activation past) :
    Standing evidence authority activation final ∧
      ¬ final.activations.Used authority.authorityId := by
  have prepared := issued.issued.prepared
  have put := activation_after path answered issued.issued.put
  rw [prepared.activationId] at put
  refine ⟨⟨?_, put.1, ?_⟩, put.2⟩
  · rw [prepared.binding.evidenceId]
    exact evidence_after path answered issued.committed
  · refine answered.keeps World.exec (BindsState authority.binding) ?_ issued.binds
    intro event member state binds
    exact bindsState_kept event.op binds

/-- What may happen between two calls that changes none of what authorities are bound
to. -/
structure World.Drift (before after : World) : Prop extends World.Environment before after where
  reference : after.state.protectedStateReference = before.state.protectedStateReference
  epochs : ∀ epoch, after.state.epoch epoch = before.state.epoch epoch

/-- The operations that leave evidence under an identifier alone. -/
private def SparesEvidence (evidenceId : Str) (op : Op) : Prop :=
  ∀ fields, op = .commitEvidence fields → fields.evidenceId ≠ evidenceId

private theorem program_spares {call : Call} {evidenceId : Str}
    (other : call.evidenceId ≠ some evidenceId) :
    call.program.Uses (SparesEvidence evidenceId) := by
  cases call with
  | validateAndIssue ped draws candidate =>
      apply ProtectedEnforcementDomain.validateAndIssue_uses.mono
      rintro op issues fields rfl same
      exact other (congrArg some (Eq.trans (Eq.symm issues) same))
  | verifyAndEffectuate sink request draw =>
      apply NetworkFinalitySink.verifyAndEffectuate_uses.mono
      rintro op effectuates fields rfl
      cases effectuates

/-- An authority goes on standing while other calls run. -/
theorem standing_kept {schedule : Schedule Call.program World}
    (fresh : ∀ pool call, schedule.starts pool call →
      call.evidenceId ≠ some authority.binding.evidenceId)
    (drifts : ∀ pool state, schedule.changes pool state → World.Drift pool.shared state)
    {pool : Pool Call.program World}
    (steps : Pool.Steps World.exec schedule (Pool.initial Call.program world) pool)
    (standing : Standing evidence authority activation world) :
    Standing evidence authority activation pool.shared := by
  refine (Pool.Steps.preserves (Standing evidence authority activation) ?_
    (fun pool call starts => program_spares (fresh pool call starts)) ?_ steps standing).1
  · intro op spares state standing
    refine ⟨?_, (World.exec_activations op state).keeps standing.activation,
      bindsState_kept op standing.state⟩
    rw [World.exec_evidence_other op state spares]
    exact standing.evidence
  · intro pool state allowed standing
    have drift := drifts pool state allowed
    refine ⟨?_, ?_, ?_, fun epoch => ?_⟩
    · rw [drift.toEnvironment.evidence]
      exact standing.evidence
    · rw [drift.toEnvironment.activations]
      exact standing.activation
    · rw [drift.reference]
      exact standing.state.reference
    · rw [drift.epochs]
      exact standing.state.epochs epoch

/-- A flag that is set was set by some thread. -/
theorem used_consumed {schedule : Schedule Call.program World}
    (environment : EnvironmentOnly schedule) {pool : Pool Call.program World}
    (steps : Pool.Steps World.exec schedule (Pool.initial Call.program world) pool)
    {authorityId : Str} (unused : ¬ world.activations.Used authorityId)
    (used : pool.shared.activations.Used authorityId) :
    ∃ thread ∈ pool.threads, ⟨.consume authorityId, .ok true⟩ ∈ thread.past := by
  obtain ⟨thread, member, event, performed, rfl⟩ := Pool.provenance
    (fun state => state.activations.Used authorityId)
    (fun event : Event system => event = ⟨.consume authorityId, .ok true⟩)
    (fun op state => (World.exec_activations op state).used_origin)
    (fun before after allowed shown => by rwa [(environment _ _ allowed).activations] at shown)
    unused steps used
  exact ⟨thread, member, performed⟩

end

/-- Whatever other calls have run since, the sink that a candidate names permits what the
candidate asked for, as long as nobody has consumed its authority, the state is still
the one bound and the authority has not expired. -/
theorem sink_agrees [Hashlib] {ped : ProtectedEnforcementDomain} {draws : IssueDraws}
    {candidate : NetworkCandidateAct} {before issued : World} {decision : NetworkValidationDecision}
    {authority : NetworkFinalityAuthority}
    (ran : (ped.validateAndIssue draws candidate).run World.exec before =
      (.ok ⟨decision, some authority⟩, issued))
    {schedule : Schedule Call.program World}
    (fresh : ∀ pool call, schedule.starts pool call → call.evidenceId ≠ some draws.evidenceId)
    (drifts : ∀ pool state, schedule.changes pool state → World.Drift pool.shared state)
    {pool : Pool Call.program World}
    (steps : Pool.Steps World.exec schedule (Pool.initial Call.program issued) pool)
    (unconsumed : ∀ thread ∈ pool.threads,
      ⟨.consume authority.authorityId, .ok true⟩ ∉ thread.past)
    (unexpired : pool.shared.clock < authority.lifetime.expiresAt) {sink : NetworkFinalitySink}
    (verified : ped.signer.VerifiedBy sink.verifier)
    (sinkId : sink.sinkId = candidate.finalitySink.sinkId)
    (sinkType : sink.sinkType = candidate.finalitySink.sinkType.value) {request : SinkRequest}
    (given : request.candidate = candidate) (presented : request.authority = some authority)
    (conforms : Conforms candidate request.proposedEffect) (hex : Str) :
    ∃ response after,
      (sink.verifyAndEffectuate request (some hex)).run World.exec pool.shared =
        (.ok response, after) ∧
      response.Allows request authority (("net-effect-" : Str) ++ hex) ∧
      after.effect sink.network (("net-effect-" : Str) ++ hex) =
        some (NetworkFinalitySink.effectOf request authority) := by
  obtain ⟨past, returned, answered⟩ := (run_ok_iff World.exec).mp ran
  obtain ⟨now, evidence, activation, facts⟩ :=
    ProtectedEnforcementDomain.issued_of_returns returned
  have facts := facts.issuedIn answered
  obtain ⟨standing, unused⟩ := standing_of_issued returned answered facts
  rw [← bound_evidenceId facts] at fresh
  have environment : EnvironmentOnly schedule :=
    fun pool state allowed => (drifts pool state allowed).toEnvironment
  have still : ¬ pool.shared.activations.Used authority.authorityId := by
    intro used
    obtain ⟨thread, member, consumed⟩ := used_consumed environment steps unused used
    exact unconsumed thread member consumed
  obtain ⟨stored, read, permitted⟩ := permitted_of_standing facts
    (standing_kept fresh drifts steps standing) still unexpired verified sinkId sinkType given
    presented conforms
  refine ⟨_, _, NetworkFinalitySink.verifyAndEffectuate_ok.mpr ⟨authority, stored, read, hex,
    permitted, rfl, rfl, rfl⟩, ⟨rfl, rfl, rfl, rfl, rfl, rfl, rfl⟩, ?_⟩
  simp [World.effect, NetworkFinalitySink.applied, World.exec, DemoNetwork.apply]

/-- An authority with a time to live has not expired where it is issued. -/
theorem unexpired_of_issued [Hashlib] {ped : ProtectedEnforcementDomain} {draws : IssueDraws}
    {candidate : NetworkCandidateAct} {before issued : World} {decision : NetworkValidationDecision}
    {authority : NetworkFinalityAuthority}
    (ran : (ped.validateAndIssue draws candidate).run World.exec before =
      (.ok ⟨decision, some authority⟩, issued)) (lives : 0 < ped.policy.authorityTtl) :
    issued.clock < authority.lifetime.expiresAt := by
  obtain ⟨past, returned, answered⟩ := (run_ok_iff World.exec).mp ran
  obtain ⟨now, evidence, activation, facts⟩ :=
    ProtectedEnforcementDomain.issued_of_returns returned
  have facts := facts.issuedIn answered
  have clock : issued.clock = before.clock := by
    refine answered.keeps World.exec (fun state => state.clock = before.clock) ?_ rfl
    intro event _ state same
    rw [World.exec_clock, same]
  have expiry := DateTime.add_ok facts.issued.prepared.expiresAt
  have valid := facts.valid.unexpired
  rw [DateTime.sub] at expiry
  rw [DateTime.lt_iff] at valid ⊢
  rw [clock]
  omega

/-- The sink that a candidate names permits what the candidate asked for, where its
authority has just been issued. -/
theorem allows_where_issued [Hashlib] {ped : ProtectedEnforcementDomain} {draws : IssueDraws}
    {candidate : NetworkCandidateAct} {before issued : World} {decision : NetworkValidationDecision}
    {authority : NetworkFinalityAuthority}
    (ran : (ped.validateAndIssue draws candidate).run World.exec before =
      (.ok ⟨decision, some authority⟩, issued)) (lives : 0 < ped.policy.authorityTtl)
    {sink : NetworkFinalitySink} (verified : ped.signer.VerifiedBy sink.verifier)
    (sinkId : sink.sinkId = candidate.finalitySink.sinkId)
    (sinkType : sink.sinkType = candidate.finalitySink.sinkType.value) {request : SinkRequest}
    (given : request.candidate = candidate) (presented : request.authority = some authority)
    (conforms : Conforms candidate request.proposedEffect) (hex : Str) :
    (sink.verifyAndEffectuate request (some hex)).run World.exec issued =
      (.ok (NetworkFinalitySink.allow request authority guardChecks (("net-effect-" : Str) ++ hex)),
        sink.applied request authority hex issued) := by
  have unexpired := unexpired_of_issued ran lives
  obtain ⟨past, returned, answered⟩ := (run_ok_iff World.exec).mp ran
  obtain ⟨now, evidence, activation, facts⟩ :=
    ProtectedEnforcementDomain.issued_of_returns returned
  have facts := facts.issuedIn answered
  obtain ⟨standing, unused⟩ := standing_of_issued returned answered facts
  obtain ⟨stored, read, permitted⟩ := permitted_of_standing facts standing unused unexpired
    verified sinkId sinkType given presented conforms
  exact NetworkFinalitySink.verifyAndEffectuate_ok.mpr
    ⟨authority, stored, read, hex, permitted, rfl, rfl, rfl⟩

/-! ### The reference effect -/

/-- The digest that is stored is that of the parameters. -/
private theorem parametersDigest_ok [Hashlib] {parameters : List (Str × Value)} {digest : Digest}
    (digested : parametersDigest parameters = .ok digest) :
    digest.algorithm = .sha256 ∧
      digestValue (.dict (parameters.map fun (name, value) => (.str name, value))) .sha256 =
        .ok digest.value.1 := by
  obtain ⟨text, hashed, bounded⟩ := bind_eq_ok.mp digested
  obtain ⟨value, valid, bounded⟩ := bind_eq_ok.mp bounded
  obtain rfl := pure_eq_ok.mp bounded
  exact ⟨rfl, by rw [hashed, MinStr.validate_ok valid]⟩

/-- A candidate names the sink it is made for. -/
theorem makeCandidate_sink [Hashlib] {arguments : CandidateArguments} {now : DateTime}
    {candidate : NetworkCandidateAct} (made : makeCandidate arguments now = .ok candidate) :
    candidate.finalitySink = ⟨arguments.sinkId, arguments.sinkType⟩ := by
  obtain ⟨expiresAt, -, made⟩ := bind_eq_ok.mp made
  obtain ⟨digest, -, made⟩ := bind_eq_ok.mp made
  split at made
  · rw [← pure_eq_ok.mp made]
  · cases made

/-- What `makeEffect` makes of a candidate conforms to it. -/
theorem makeEffect_conforms [Hashlib] {arguments : CandidateArguments} {now : DateTime}
    {candidate : NetworkCandidateAct} {effect : ProposedEffect}
    (made : makeCandidate arguments now = .ok candidate)
    (proposed : makeEffect candidate arguments.parameters [] [] none = .ok effect) :
    Conforms candidate effect := by
  obtain ⟨expiresAt, -, made⟩ := bind_eq_ok.mp made
  obtain ⟨digest, digested, made⟩ := bind_eq_ok.mp made
  split at made
  · obtain rfl := pure_eq_ok.mp made
    obtain ⟨digest', digested', proposed⟩ := bind_eq_ok.mp proposed
    obtain rfl := pure_eq_ok.mp proposed
    obtain rfl := Except.ok.inj (digested.symm.trans digested')
    obtain ⟨algorithm, value⟩ := parametersDigest_ok digested
    refine ⟨rfl, rfl, rfl, ?_, rfl, ?_⟩
    · rw [algorithm]
      exact value
    · intro maximum bounded duration given
      exact (Option.some.inj (given.symm.trans bounded)).le
  · cases made

namespace Reference

/-- The candidate and the effect are what `makeCandidate` and `makeEffect` return. -/
theorem valueOf_ok {ε α : Type} {outcome : Except ε α}
    (returned : outcome.toOption.isSome = true) : outcome = .ok (valueOf outcome returned) := by
  cases outcome with
  | error reason => cases returned
  | ok value => rfl

theorem candidate_made : @makeCandidate .checksum {} clock = .ok candidate := by
  rw [candidate]
  exact valueOf_ok _

theorem effect_conforms : @Conforms .checksum candidate effect := by
  apply @makeEffect_conforms .checksum {} _ _ _ candidate_made
  rw [effect]
  exact valueOf_ok _

/-- A candidate that is made for the reference sink names it. -/
theorem start_named {arguments : CandidateArguments} {now : DateTime}
    {candidate : NetworkCandidateAct} (made : @makeCandidate .checksum arguments now = .ok candidate)
    (sinkId : start.sink.sinkId = arguments.sinkId)
    (sinkType : start.sink.sinkType = arguments.sinkType.value) :
    start.sink.sinkId = candidate.finalitySink.sinkId ∧
      start.sink.sinkType = candidate.finalitySink.sinkType.value := by
  rw [@makeCandidate_sink .checksum _ _ _ made]
  exact ⟨sinkId, sinkType⟩

/-- The reference domain issues authorities that live for a while. -/
theorem start_lives : 0 < start.ped.policy.authorityTtl := by decide

/-- The reference sink allows what a candidate that names it asks for, where its authority
is returned. -/
theorem allowed_where_returned {draws : IssueDraws} {candidate : NetworkCandidateAct}
    {ran : Except Exit PEDResult × World} {world : World} {authority : NetworkFinalityAuthority}
    (issues : (@ProtectedEnforcementDomain.validateAndIssue .checksum start.ped draws candidate).run
      (@World.exec .checksum) world = ran)
    (returned : authorityOf ran.1 = some authority)
    (named : start.sink.sinkId = candidate.finalitySink.sinkId ∧
      start.sink.sinkType = candidate.finalitySink.sinkType.value) {request : SinkRequest}
    (given : request.candidate = candidate) (presented : request.authority = some authority)
    (conforms : @Conforms .checksum candidate request.proposedEffect) (hex : Str) :
    ∃ response,
      (@NetworkFinalitySink.verifyAndEffectuate .checksum start.sink request (some hex)).run
          (@World.exec .checksum) ran.2 =
        (.ok response, @NetworkFinalitySink.applied .checksum start.sink request authority hex
          ran.2) ∧
      response.decision = .allow := by
  obtain ⟨decision, outcome⟩ := ran_authority returned
  have allowed := @allows_where_issued .checksum _ _ _ _ _ _ _ (issues.trans outcome) start_lives
    start.sink signer_verifiedBy named.1 named.2 request given presented conforms hex
  exact ⟨_, allowed, rfl⟩

/-- The reference sink allows the reference request where its authority is issued. -/
theorem sink_agrees_reference :
    ∃ response after,
      (@NetworkFinalitySink.verifyAndEffectuate .checksum start.sink request
        (some "0000000001")).run (@World.exec .checksum) issuedWorld = (.ok response, after) ∧
      response.Allows request authority "net-effect-0000000001" ∧
      after.effect 0 "net-effect-0000000001" =
        some (NetworkFinalitySink.effectOf request authority) := by
  obtain ⟨decision, ran⟩ := issued_authority
  rw [issued] at ran
  have unexpired := @unexpired_of_issued .checksum _ _ _ _ _ _ _ ran start_lives
  have shared : (Pool.initial (@Call.program .checksum) issuedWorld).shared = issuedWorld := by
    simp only [Pool.initial]
  have named := start_named candidate_made rfl rfl
  have given : request.candidate = candidate := by simp only [request]
  have presented : request.authority = some authority := by simp only [request]
  have conforms : @Conforms .checksum candidate request.proposedEffect := by
    simp only [request, effect_conforms]
  rw [← shared] at unexpired ⊢
  exact @sink_agrees .checksum _ _ _ _ _ _ _ ran
    ⟨fun _ call => call.evidenceId ≠ some draws.evidenceId, fun pool => World.Drift pool.shared⟩
    (fun _ _ => id) (fun _ _ => id) _ .refl (by simp [Pool.initial]) unexpired start.sink
    signer_verifiedBy named.1 named.2 request given presented conforms "0000000001"

end Reference
end NetworkFinality
