import NetworkFinality.Safety.Provenance

/-!
# Evidence before authority

A call commits its evidence before it puts an activation record, and may stop
between any two operations. With fresh evidence identifiers the record of a call
stays the one it committed, so every activation record resolves to evidence of an
ALLOW decision, and evidence whose call stopped before the put backs no effect.
-/

namespace NetworkFinality

open Python Semantics Procedure

/-- Calls start with evidence identifiers that no earlier call has. -/
def FreshEvidence [Hashlib] (schedule : Schedule Call.program World) : Prop :=
  ∀ pool call, schedule.starts pool call → ∀ thread ∈ pool.threads, ∀ evidenceId,
    thread.call.evidenceId = some evidenceId → call.evidenceId ≠ some evidenceId

/-- Any call with a fresh evidence identifier may start, and the environment may take
any step. -/
def freshlyIdentified [Hashlib] : Schedule Call.program World where
  starts pool call := ∀ thread ∈ pool.threads, ∀ evidenceId,
    thread.call.evidenceId = some evidenceId → call.evidenceId ≠ some evidenceId
  changes pool state := World.Environment pool.shared state

section

variable [Hashlib] {thread : Thread Call.program}

/-- A thread that has committed evidence is an issuing call, under its own identifier. -/
theorem committed_of_thread {fields : EvidenceFields} {outcome : Except PyError EvidenceRecord}
    (committed : ⟨.commitEvidence fields, outcome⟩ ∈ thread.past) :
    thread.call.evidenceId = some fields.evidenceId := by
  obtain ⟨call, past, rest, reached⟩ := thread
  cases call with
  | validateAndIssue ped draws candidate =>
      have permitted := ProtectedEnforcementDomain.validateAndIssue_uses.events reached _ committed
      exact congrArg some (Eq.symm permitted)
  | verifyAndEffectuate sink request draw =>
      have written : ⟨.commitEvidence fields, outcome⟩ ∈ writes past := mem_writes.mpr ⟨committed, rfl⟩
      cases NetworkFinalitySink.verifyAndEffectuate_stage reached <;> simp_all

/-- A thread commits evidence at most once. -/
theorem committed_once {fields fields' : EvidenceFields}
    {outcome outcome' : Except PyError EvidenceRecord}
    (committed : ⟨.commitEvidence fields, outcome⟩ ∈ thread.past)
    (committed' : ⟨.commitEvidence fields', outcome'⟩ ∈ thread.past) :
    fields = fields' ∧ outcome = outcome' := by
  have issuing := committed_of_thread committed
  obtain ⟨call, past, rest, reached⟩ := thread
  cases call with
  | validateAndIssue ped draws candidate =>
      have same := ProtectedEnforcementDomain.validateAndIssue_commits_once.unique reached
        committed committed' ⟨fields, rfl⟩ ⟨fields', rfl⟩
      cases same
      exact ⟨rfl, rfl⟩
  | verifyAndEffectuate sink request draw => cases issuing

end

section

variable [Hashlib] {schedule : Schedule Call.program World}
  (environment : EnvironmentOnly schedule) (distinct : FreshEvidence schedule) {world : World}
  {pool : Pool Call.program World}
  (steps : Pool.Steps World.exec schedule (Pool.initial Call.program world) pool)

include distinct steps in
/-- Two threads that have committed evidence under one identifier are the same. -/
theorem committed_by_one {i j : Nat} {first second : Thread Call.program}
    (atFirst : pool.threads[i]? = some first) (atSecond : pool.threads[j]? = some second)
    {fields fields' : EvidenceFields} {outcome outcome' : Except PyError EvidenceRecord}
    (committed : ⟨.commitEvidence fields, outcome⟩ ∈ first.past)
    (committed' : ⟨.commitEvidence fields', outcome'⟩ ∈ second.past)
    (same : fields.evidenceId = fields'.evidenceId) : i = j := by
  have named := committed_of_thread committed
  have named' := committed_of_thread committed'
  rw [← same] at named'
  exact Pool.distinct_starts Call.evidenceId distinct steps atFirst atSecond named named'

include environment steps in
/-- The identifier of committed evidence stays taken. -/
theorem committed_stored {thread : Thread Call.program} (member : thread ∈ pool.threads)
    {fields : EvidenceFields} {record : EvidenceRecord}
    (committed : ⟨.commitEvidence fields, .ok record⟩ ∈ thread.past) :
    pool.shared.evidence fields.evidenceId ≠ none := by
  refine Pool.events_hold
    (fun (event : Event system) state => event = ⟨.commitEvidence fields, .ok record⟩ →
      state.evidence fields.evidenceId ≠ none)
    ?_ ?_ ?_ steps thread member _ committed rfl
  · intro op state same
    obtain ⟨rfl, answered⟩ := Event.mk.inj same
    obtain ⟨-, -, stored, -, present⟩ := World.exec_commit state (eq_of_heq answered)
    simp [present]
  · intro event op state before same
    exact (World.exec_evidence op state).keeps (before same)
  · intro before after allowed event shown same
    rw [(environment _ _ allowed).evidence]
    exact shown same

include environment distinct steps in
/-- What a thread has committed is what its identifier holds. -/
theorem committed_resolves (unrecorded : world.Unrecorded) {thread : Thread Call.program}
    (member : thread ∈ pool.threads) {fields : EvidenceFields} {record : EvidenceRecord}
    (committed : ⟨.commitEvidence fields, .ok record⟩ ∈ thread.past) :
    ∃ stored : EvidenceRecord, pool.shared.evidence fields.evidenceId = some stored ∧
      stored.SameInstant record := by
  have present := committed_stored environment steps member committed
  obtain ⟨stored, held⟩ := Option.ne_none_iff_exists'.mp present
  obtain ⟨thread', member', fields', record', committed', origin⟩ :=
    evidence_committed environment steps unrecorded held
  obtain ⟨i, place⟩ := List.mem_iff_getElem?.mp member
  obtain ⟨j, place'⟩ := List.mem_iff_getElem?.mp member'
  obtain rfl := committed_by_one distinct steps place place' committed committed' origin.named.symm
  obtain rfl := Option.some.inj (place.symm.trans place')
  obtain ⟨rfl, outcome⟩ := committed_once committed committed'
  obtain rfl := Except.ok.inj outcome
  exact ⟨stored, held, origin.agrees⟩

end

/-- The evidence an authority is bound to is stored, and allows its candidate. -/
structure Evidenced (world : World) (authority : NetworkFinalityAuthority)
    (stored : EvidenceRecord) : Prop where
  resolves : world.evidenceStore.get authority.binding.evidenceId = .ok (some stored)
  digest : stored.digest = authority.binding.evidenceDigest.value
  decision : stored.decision = Decision.allow.value
  candidateActId : stored.candidateActId = authority.candidateActId
  decisionId : stored.decisionId = authority.decisionId

section

variable [Hashlib] {schedule : Schedule Call.program World}
  (environment : EnvironmentOnly schedule) (distinct : FreshEvidence schedule) {world : World}
  {pool : Pool Call.program World}
  (steps : Pool.Steps World.exec schedule (Pool.initial Call.program world) pool)

include environment distinct steps in
/-- An authority that a call has issued is evidenced. -/
theorem issued_evidenced (unrecorded : world.Unrecorded) {thread : Thread Call.program}
    (member : thread ∈ pool.threads) {ped : ProtectedEnforcementDomain} {draws : IssueDraws}
    {candidate : NetworkCandidateAct} {now : DateTime} {decision : NetworkValidationDecision}
    {evidence : EvidenceRecord} {authority : NetworkFinalityAuthority}
    {activation : ActivationRecord}
    (issued : ped.Issued draws candidate now decision evidence authority activation thread.past) :
    ∃ stored, Evidenced pool.shared authority stored := by
  obtain ⟨reference, counter, -, committed⟩ := issued.committed
  obtain ⟨stored, held, agrees⟩ := committed_resolves environment distinct steps unrecorded member
    committed
  have returned := (committed_record steps member committed).1
  have prepared := issued.prepared
  have fields : stored.decision = evidence.decision ∧
      stored.candidateActId = evidence.candidateActId ∧
      stored.decisionId = evidence.decisionId :=
    ⟨congrArg (·.decision) agrees.fields, congrArg (·.candidateActId) agrees.fields,
      congrArg (·.decisionId) agrees.fields⟩
  have evidenceId : authority.binding.evidenceId = draws.evidenceId := by
    rw [prepared.binding.evidenceId]
    exact congrArg (·.evidenceId) returned
  refine ⟨stored, ⟨?_, ?_, ?_, ?_, ?_⟩⟩
  · rw [evidenceId]
    exact EvidenceStore.get_some held
  · rw [agrees.digest, prepared.binding.evidenceDigest]
  · rw [fields.1, congrArg (·.decision) returned]
    exact congrArg Decision.value issued.decided.outcome
  · rw [fields.2.1, congrArg (·.candidateActId) returned, prepared.candidateActId]
    rfl
  · rw [fields.2.2, congrArg (·.decisionId) returned, prepared.decisionId]
    rfl

end

section

variable [Hashlib] {schedule : Schedule Call.program World}
  (environment : EnvironmentOnly schedule) (distinct : FreshEvidence schedule) {world : World}
  (fresh : world.Fresh) {pool : Pool Call.program World}
  (steps : Pool.Steps World.exec schedule (Pool.initial Call.program world) pool)

include environment distinct fresh steps in
/-- Evidence that backs a cleared request belongs to a call that has put its activation
record. -/
theorem backed_by_put (collisionFree : CollisionFree authorityDigest (authorities pool))
    {thread other : Thread Call.program} (member : thread ∈ pool.threads)
    (member' : other ∈ pool.threads) {fields : EvidenceFields} {record : EvidenceRecord}
    (committed : ⟨.commitEvidence fields, .ok record⟩ ∈ thread.past) {sink : NetworkFinalitySink}
    {request : SinkRequest} {draw : Option Str} {authority : NetworkFinalityAuthority}
    (call : other.call = .verifyAndEffectuate sink request draw)
    (cleared : Cleared sink request authority other.past)
    (bound : authority.binding.evidenceId = fields.evidenceId) :
    ∃ activation, ⟨.putActivation activation, .ok ()⟩ ∈ thread.past := by
  obtain ⟨issuer, issuing, ped, draws, candidate, now, decision, evidence, activation, -, issued, -⟩ :=
    cleared_issued environment fresh steps collisionFree member' call cleared
  obtain ⟨reference, counter, -, committed'⟩ := issued.committed
  have returned := (committed_record steps issuing committed').1
  have same : fields.evidenceId = draws.evidenceId := by
    rw [← bound, issued.prepared.binding.evidenceId]
    exact congrArg (·.evidenceId) returned
  obtain ⟨i, place⟩ := List.mem_iff_getElem?.mp member
  obtain ⟨j, place'⟩ := List.mem_iff_getElem?.mp issuing
  obtain rfl := committed_by_one distinct steps place place' committed committed' same
  obtain rfl := Option.some.inj (place.symm.trans place')
  exact ⟨activation, issued.put⟩

end

/-- At every point of every interleaving, an activation record resolves to evidence
that allows its authority, and evidence of a call that has put no activation record
backs no effect. -/
theorem evidence_before_authority [Hashlib] {schedule : Schedule Call.program World}
    (environment : EnvironmentOnly schedule) (distinct : FreshEvidence schedule) {world : World}
    (fresh : world.Fresh) (unrecorded : world.Unrecorded) {pool : Pool Call.program World}
    (steps : Pool.Steps World.exec schedule (Pool.initial Call.program world) pool)
    (collisionFree : CollisionFree authorityDigest (authorities pool)) :
    (∀ authorityId record,
      pool.shared.activationStore.get authorityId = .ok (some record) →
        (∃ authority ∈ authorities pool, authorityDigest authority = .ok record.authorityDigest) ∧
        ∀ authority ∈ authorities pool, authorityDigest authority = .ok record.authorityDigest →
          ∃ stored, Evidenced pool.shared authority stored) ∧
      ∀ thread ∈ pool.threads, ∀ fields record,
        ⟨.commitEvidence fields, .ok record⟩ ∈ thread.past →
        fields.decision = Decision.allow.value →
        (∀ activation, ⟨.putActivation activation, .ok ()⟩ ∉ thread.past) →
        ∀ other ∈ pool.threads, ∀ sink request draw authority,
          other.call = .verifyAndEffectuate sink request draw →
          request.authority = some authority →
          authority.binding.evidenceId = fields.evidenceId →
          ∀ network effect effectId, ⟨.apply network effect draw, .ok effectId⟩ ∉ other.past := by
  constructor
  · intro authorityId record found
    have present := (ActivationStore.get_ok found).symm
    obtain ⟨issuer, member, activation, put, -, same⟩ :=
      activation_put environment.activationsKept fresh steps present
    obtain ⟨ped, draws, candidate, now, decision, evidence, issued, call, facts, returned⟩ :=
      issued_of_thread put
    have occurs : issued ∈ authorities pool := ⟨issuer, member, .inr returned⟩
    have digest : authorityDigest issued = .ok record.authorityDigest := by
      rw [facts.prepared.authorityDigest]
      have equal : activation.authorityDigest = record.authorityDigest :=
        congrArg (·.authorityDigest) same
      rw [equal]
    refine ⟨⟨issued, occurs, digest⟩, ?_⟩
    intro authority occurs' digest'
    obtain rfl := collisionFree _ occurs _ occurs' _ digest digest'
    exact issued_evidenced environment distinct steps unrecorded member facts
  · intro thread member fields record committed _ unissued other member' sink request draw authority
      call presented bound network effect effectId applied
    obtain ⟨sink', request', authority', call', -, -, cleared, -⟩ := applied_of_thread applied
    obtain ⟨rfl, rfl, -⟩ := Call.verifyAndEffectuate.inj (call.symm.trans call')
    have presented' : request.authority = some authority' := by
      obtain ⟨_, _, _, admitted, -⟩ := cleared
      exact admitted.presented
    obtain rfl := Option.some.inj (presented.symm.trans presented')
    obtain ⟨activation, put⟩ := backed_by_put environment distinct fresh steps collisionFree member
      member' committed call cleared bound
    exact unissued activation put

/-- The reference run commits one evidence record. -/
theorem evidenceBodies_reference {first second : EvidenceFields × Str}
    (occurs : first ∈ @evidenceBodies .checksum Reference.pool)
    (occurs' : second ∈ @evidenceBodies .checksum Reference.pool) : first = second := by
  have issuer : ∀ thread ∈ Reference.pool.threads, ∀ fields outcome,
      ⟨.commitEvidence fields, outcome⟩ ∈ thread.past →
        thread = Turn.thread _ (@World.exec .checksum)
          ⟨.validateAndIssue Reference.start.ped Reference.draws Reference.candidate,
            Reference.start.world⟩ := by
    intro thread member fields outcome committed
    have named := @committed_of_thread .checksum thread fields outcome committed
    obtain ⟨turn, listed, rfl⟩ := List.mem_map.mp member
    rcases List.mem_pair.mp listed with rfl | rfl
    · rfl
    · cases named
  obtain ⟨fields, previous⟩ := first
  obtain ⟨fields', previous'⟩ := second
  obtain ⟨thread, member, record, committed, rfl⟩ := occurs
  obtain ⟨thread', member', record', committed', rfl⟩ := occurs'
  obtain rfl := (issuer thread member _ _ committed).trans (issuer thread' member' _ _ committed').symm
  obtain ⟨rfl, same⟩ := @committed_once .checksum thread _ _ _ _ committed committed'
  rw [Except.ok.inj same]

/-- In the reference run the authority is evidenced. -/
theorem evidence_before_authority_reference :
    ∃ stored, Evidenced Reference.finalWorld Reference.authority stored := by
  have steps : Pool.Steps (@World.exec .checksum) (@freshlyIdentified .checksum)
      (Pool.initial _ Reference.start.world) Reference.pool := by
    apply Reference.history.pool _ fun _ _ => id
    intro earlier turn later split thread member evidenceId named
    -- Only the second call starts beside another, and it commits no evidence.
    rcases earlier with _ | ⟨first, _ | ⟨second, earlier⟩⟩
    · cases member
    · obtain ⟨-, split⟩ := List.cons.inj split
      obtain ⟨rfl, -⟩ := List.cons.inj split
      simp [Call.evidenceId]
    · have length := congrArg List.length split
      simp [Reference.turns] at length
  have sole : @CollisionFree _ (@authorityDigest .checksum)
      (@authorities .checksum Reference.pool) := by
    intro first occurs second occurs' _ _ _
    rw [authorities_reference occurs, authorities_reference occurs']
  have fresh : Reference.start.world.Fresh := buildReferenceSystem_fresh _ _
  have unrecorded : Reference.start.world.Unrecorded := buildReferenceSystem_unrecorded _ _
  have resolved := (@evidence_before_authority .checksum _ (fun _ _ => id) (fun _ _ => id) _ fresh
    unrecorded _ steps sole).1
  have shared : Reference.pool.shared = Reference.finalWorld := by rw [Reference.pool, Turn.pool_shared]
  rw [shared] at resolved
  have stored := Reference.effectuated_allow.2.2.1
  cases found : Reference.finalWorld.activationStore.get Reference.draws.authorityId with
  | error error =>
      rw [found] at stored
      cases stored
  | ok entry =>
      cases entry with
      | none =>
          rw [found] at stored
          cases stored
      | some record =>
          obtain ⟨⟨authority, occurs, digest⟩, evidenced⟩ := resolved _ record found
          rw [← authorities_reference occurs]
          exact evidenced authority occurs digest

end NetworkFinality
