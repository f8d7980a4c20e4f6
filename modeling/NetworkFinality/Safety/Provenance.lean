import NetworkFinality.Model.Engine
import NetworkFinality.Refinement.Steps
import NetworkFinality.Spec.Ped
import NetworkFinality.Spec.Sink

/-!
# Where recorded data comes from

In every pool that starts from empty stores, an activation record was put by a call
that issued its authority, an evidence record was committed by a call, and an
effect was applied by a call whose guards had passed. `cleared_issued` joins them:
a request that passes a sink's guards presents what some call has issued, as far
as the digests tell.
-/

namespace NetworkFinality

open Python Semantics Procedure

/-- Nothing is issued and no effect is recorded. -/
structure World.Fresh (world : World) : Prop where
  activations : ∀ authorityId, world.activations authorityId = none
  effects : ∀ network effectId, world.effect network effectId = none

/-- No evidence is recorded. -/
def World.Unrecorded (world : World) : Prop := ∀ evidenceId, world.evidence evidenceId = none

/-- The system starts with nothing issued and no effect recorded. -/
theorem buildReferenceSystem_fresh (arguments : SystemArguments) (clock : DateTime) :
    (buildReferenceSystem arguments .memory clock).world.Fresh where
  activations _ := rfl
  effects _ _ := rfl

theorem buildReferenceSystem_unrecorded (arguments : SystemArguments) (clock : DateTime) :
    (buildReferenceSystem arguments .memory clock).world.Unrecorded := fun _ => rfl

/-- The environment of a schedule keeps to the clock and the protected state. -/
def EnvironmentOnly [Hashlib] (schedule : Schedule Call.program World) : Prop :=
  ∀ pool state, schedule.changes pool state → World.Environment pool.shared state

/-- The environment of a schedule puts, consumes and restores no activation record. -/
def ActivationsKept [Hashlib] (schedule : Schedule Call.program World) : Prop :=
  ∀ pool state, schedule.changes pool state → state.activations = pool.shared.activations

/-- The environment of a schedule commits no evidence. -/
def EvidenceKept [Hashlib] (schedule : Schedule Call.program World) : Prop :=
  ∀ pool state, schedule.changes pool state → state.evidenceStore = pool.shared.evidenceStore

/-- Any call may start at any time, and the environment may take any step. -/
def unrestricted [Hashlib] : Schedule Call.program World where
  starts _ _ := True
  changes pool state := World.Environment pool.shared state

theorem unrestricted_environment [Hashlib] : EnvironmentOnly unrestricted := fun _ _ => id

namespace World.Environment

variable {before after : World} (environment : World.Environment before after)
include environment

theorem activations : after.activations = before.activations := by
  rw [World.activations, environment.activationStore, World.activations]

theorem evidence : after.evidence = before.evidence := by
  rw [World.evidence, environment.evidenceStore, World.evidence]

theorem effect : after.effect = before.effect := by
  funext network effectId
  rw [World.effect, environment.networks, World.effect]

end World.Environment

theorem EnvironmentOnly.activationsKept [Hashlib] {schedule : Schedule Call.program World}
    (environment : EnvironmentOnly schedule) : ActivationsKept schedule :=
  fun pool state changed => (environment pool state changed).activations

theorem EnvironmentOnly.evidenceKept [Hashlib] {schedule : Schedule Call.program World}
    (environment : EnvironmentOnly schedule) : EvidenceKept schedule :=
  fun pool state changed => (environment pool state changed).evidenceStore

/-! ### The values that occur -/

/-- Distinct values have distinct digests. -/
def CollisionFree {α : Type} (digest : α → Except PyError Str) (values : Set α) : Prop :=
  ∀ x ∈ values, ∀ y ∈ values, ∀ result, digest x = .ok result → digest y = .ok result → x = y

theorem CollisionFree.mono {α : Type} {digest : α → Except PyError Str} {values fewer : Set α}
    (free : CollisionFree digest values) (sub : fewer ⊆ values) : CollisionFree digest fewer :=
  fun x occurs y occurs' => free x (sub occurs) y (sub occurs')

/-- The thread has returned an authority. -/
def Returned [Hashlib] (thread : Thread Call.program) (authority : NetworkFinalityAuthority) : Prop :=
  ∃ result, thread.rest = .done result ∧ thread.call.returned result = some authority

/-- The candidates the calls of a pool are given. -/
def candidates [Hashlib] (pool : Pool Call.program World) : Set NetworkCandidateAct :=
  {candidate | ∃ thread ∈ pool.threads, thread.call.candidate = candidate}

/-- The authorities the calls of a pool are given or return. -/
def authorities [Hashlib] (pool : Pool Call.program World) : Set NetworkFinalityAuthority :=
  {authority | ∃ thread ∈ pool.threads,
    thread.call.presented = some authority ∨ Returned thread authority}

/-- The bodies of the evidence that a pool has committed: the fields, and the digest
of the record before. -/
def evidenceBodies [Hashlib] (pool : Pool Call.program World) : Set (EvidenceFields × Str) :=
  {body | ∃ thread ∈ pool.threads, ∃ record : EvidenceRecord,
    ⟨.commitEvidence body.1, .ok record⟩ ∈ thread.past ∧ record.previousDigest = body.2}

/-! ### What a thread's events say about its call -/

section

variable [Hashlib] {thread : Thread Call.program}

/-- A thread that has put an activation record is an issuing call that has returned. -/
theorem thread_of_put {activation : ActivationRecord}
    (put : ⟨.putActivation activation, .ok ()⟩ ∈ thread.past) :
    ∃ ped draws candidate past now decision evidence authority reached,
      thread = ⟨.validateAndIssue ped draws candidate, past, .done ⟨decision, some authority⟩,
        reached⟩ ∧
      ped.Issued draws candidate now decision evidence authority activation past := by
  obtain ⟨call, past, rest, reached⟩ := thread
  cases call with
  | validateAndIssue ped draws candidate =>
      obtain ⟨now, decision, evidence, authority, issued, rfl⟩ :=
        ProtectedEnforcementDomain.issued_of_put reached put
      exact ⟨ped, draws, candidate, past, now, decision, evidence, authority, reached, rfl, issued⟩
  | verifyAndEffectuate sink request draw =>
      have written : ⟨.putActivation activation, .ok ()⟩ ∈ writes past := mem_writes.mpr ⟨put, rfl⟩
      cases NetworkFinalitySink.verifyAndEffectuate_stage reached <;> simp_all

/-- A thread that has put an activation record has issued and returned the authority. -/
theorem issued_of_thread {activation : ActivationRecord}
    (put : ⟨.putActivation activation, .ok ()⟩ ∈ thread.past) :
    ∃ ped draws candidate now decision evidence authority,
      thread.call = .validateAndIssue ped draws candidate ∧
        ped.Issued draws candidate now decision evidence authority activation thread.past ∧
        Returned thread authority := by
  obtain ⟨ped, draws, candidate, past, now, decision, evidence, authority, reached, rfl, issued⟩ :=
    thread_of_put put
  exact ⟨ped, draws, candidate, now, decision, evidence, authority, rfl, issued,
    ⟨decision, some authority⟩, rfl, rfl⟩

/-- A thread that has applied an effect is a cleared call that has consumed its
authority, has written nothing else, and returns. -/
theorem applied_of_thread {network : Nat} {effect : NetworkEffect} {draw : Option Str}
    {effectId : Str} (applied : ⟨.apply network effect draw, .ok effectId⟩ ∈ thread.past) :
    ∃ sink request authority,
      thread.call = .verifyAndEffectuate sink request draw ∧ network = sink.network ∧
        effect = NetworkFinalitySink.effectOf request authority ∧
        Cleared sink request authority thread.past ∧
        writes thread.past = [⟨.consume authority.authorityId, .ok true⟩,
          ⟨.apply network effect draw, .ok effectId⟩] ∧
        ∃ result, thread.rest = .done result := by
  have written : ⟨.apply network effect draw, .ok effectId⟩ ∈ writes thread.past :=
    mem_writes.mpr ⟨applied, rfl⟩
  obtain ⟨call, past, rest, reached⟩ := thread
  cases call with
  | validateAndIssue ped draws candidate =>
      have permitted := ProtectedEnforcementDomain.validateAndIssue_uses.events reached _ applied
      cases permitted
  | verifyAndEffectuate sink request draw' =>
      cases NetworkFinalitySink.verifyAndEffectuate_stage reached with
      | applied authority other cleared both ended =>
          rw [both, List.mem_cons, List.mem_singleton] at written
          rcases written with impossible | same
          · cases impossible
          · cases same
            exact ⟨sink, request, authority, rfl, rfl, rfl, cleared, both, _, ended⟩
      | guarding nothing => simp [nothing] at written
      | refused authority answer one => simp [one] at written
      | consumed authority _ one => simp [one] at written
      | failed authority error both => simp [both] at written
      | undone authority error answer three => simp [three] at written

/-- A thread about to undo a consumption has made it, and has not undone it yet. -/
theorem consumed_of_unconsume {authorityId : Str}
    {next : Except PyError Unit → Program thread.call.Result}
    (calls : thread.rest = .call (.unconsume authorityId) next) :
    ⟨.consume authorityId, .ok true⟩ ∈ thread.past ∧
      ⟨.unconsume authorityId, .ok ()⟩ ∉ thread.past := by
  obtain ⟨call, past, rest, reached⟩ := thread
  cases call with
  | validateAndIssue ped draws candidate =>
      have remaining := ProtectedEnforcementDomain.validateAndIssue_uses.remains reached
      change rest = _ at calls
      rw [calls] at remaining
      cases (uses_call.mp remaining).1
  | verifyAndEffectuate sink request draw =>
      cases NetworkFinalitySink.verifyAndEffectuate_stage reached with
      | guarding nothing allowed =>
          obtain ⟨authority, -, impossible⟩ := allowed _ _ calls rfl
          cases impossible
      | failed authority error both further next =>
          cases calls.symm.trans next
          have consumed : ⟨.consume authority.authorityId, .ok true⟩ ∈ writes past := by simp [both]
          refine ⟨(mem_writes.mp consumed).1, fun undone => ?_⟩
          have undone : ⟨.unconsume authority.authorityId, .ok ()⟩ ∈ writes past :=
            mem_writes.mpr ⟨undone, rfl⟩
          simp [both] at undone
      | refused authority answer one failed reason ended => cases calls.symm.trans ended
      | consumed authority _ one further next => cases calls.symm.trans next
      | applied authority _ _ both ended => cases calls.symm.trans ended
      | undone authority error answer three reason ended => cases calls.symm.trans ended

end

/-! ### What the stores and networks show -/

section

variable [Hashlib] {schedule : Schedule Call.program World} (kept : ActivationsKept schedule)
  {world : World} (fresh : world.Fresh) {pool : Pool Call.program World}
  (steps : Pool.Steps World.exec schedule (Pool.initial Call.program world) pool)

include kept fresh steps

/-- An activation record was put by some thread. -/
theorem activation_put {authorityId : Str} {record : ActivationRecord}
    (present : pool.shared.activations.issued authorityId = some record) :
    ∃ thread ∈ pool.threads, ∃ activation : ActivationRecord,
      ⟨.putActivation activation, .ok ()⟩ ∈ thread.past ∧ activation.authorityId = authorityId ∧
        activation.withUsed false = record := by
  obtain ⟨thread, member, event, performed, activation, rfl, named, stored⟩ := Pool.provenance
    (fun state => state.activations.issued authorityId = some record)
    (fun event : Event system => ∃ activation : ActivationRecord, event = ⟨.putActivation activation, .ok ()⟩ ∧
      activation.authorityId = authorityId ∧ activation.withUsed false = record)
    (fun op state => (World.exec_activations op state).origin)
    (fun before after allowed shown => by rwa [kept _ _ allowed] at shown)
    (by simp [ActivationTable.issued, fresh.activations]) steps present
  exact ⟨thread, member, activation, performed, named, stored⟩

omit fresh in
/-- An activation record that a thread has read is still issued. -/
theorem activation_read {thread : Thread Call.program} (member : thread ∈ pool.threads)
    {authorityId : Str} {record : ActivationRecord}
    (read : ⟨.getActivation authorityId, .ok (some record)⟩ ∈ thread.past) :
    pool.shared.activations.issued authorityId = some (record.withUsed false) := by
  refine Pool.events_hold
    (fun (event : Event system) state => event = ⟨.getActivation authorityId, .ok (some record)⟩ →
      state.activations.issued authorityId = some (record.withUsed false))
    ?_ ?_ ?_ steps thread member _ read rfl
  · intro op state same
    obtain ⟨rfl, answered⟩ := Event.mk.inj same
    exact (ActivationStore.get_ok (eq_of_heq answered)).symm
  · intro event op state before same
    exact (World.exec_activations op state).keeps (before same)
  · intro before after allowed event shown same
    rw [kept _ _ allowed]
    exact shown same

omit fresh in
/-- An activation record that a thread has put is still issued. -/
theorem activation_kept {thread : Thread Call.program} (member : thread ∈ pool.threads)
    {activation : ActivationRecord} (put : ⟨.putActivation activation, .ok ()⟩ ∈ thread.past) :
    pool.shared.activations.issued activation.authorityId =
      some (activation.withUsed false) := by
  refine Pool.events_hold
    (fun (event : Event system) state => event = ⟨.putActivation activation, .ok ()⟩ →
      state.activations.issued activation.authorityId = some (activation.withUsed false))
    ?_ ?_ ?_ steps thread member _ put rfl
  · intro op state same
    obtain ⟨rfl, answered⟩ := Event.mk.inj same
    obtain ⟨-, stored⟩ := World.exec_put state (eq_of_heq answered)
    rw [ActivationTable.issued, stored]
    rfl
  · intro event op state before same
    exact (World.exec_activations op state).keeps (before same)
  · intro before after allowed event shown same
    rw [kept _ _ allowed]
    exact shown same

/-- The record a request presents matches what was put for its authority. -/
structure Vouched [Hashlib] (request : SinkRequest) (authority : NetworkFinalityAuthority)
    (activation : ActivationRecord) : Prop where
  authorityId : activation.authorityId = authority.authorityId
  authorityDigest : authorityDigest authority = .ok activation.authorityDigest
  candidateDigest : candidateDigest request.candidate = .ok activation.candidateDigest
  nonce : activation.nonce = request.candidate.freshness.nonce

/-- A request that has passed the guards is vouched for by a record that some thread
has put. -/
theorem cleared_vouched {thread : Thread Call.program} (member : thread ∈ pool.threads)
    {sink : NetworkFinalitySink} {request : SinkRequest} {authority : NetworkFinalityAuthority}
    (cleared : Cleared sink request authority thread.past) :
    ∃ issuer ∈ pool.threads, ∃ activation : ActivationRecord,
      ⟨.putActivation activation, .ok ()⟩ ∈ issuer.past ∧ Vouched request authority activation := by
  obtain ⟨now, evidence, read, admitted, guards⟩ := cleared
  have reading : ⟨.getActivation authority.authorityId, .ok (some read)⟩ ∈ thread.past :=
    guards _ (by simp [guardEvents])
  have present := activation_read kept steps member reading
  obtain ⟨issuer, issuing, activation, put, named, same⟩ :=
    activation_put kept fresh steps present
  have digest : activation.authorityDigest = read.authorityDigest :=
    congrArg (·.authorityDigest) same
  have candidate : activation.candidateDigest = read.candidateDigest :=
    congrArg (·.candidateDigest) same
  have nonce : activation.nonce = read.nonce := congrArg (·.nonce) same
  refine ⟨issuer, issuing, activation, put, named, ?_, ?_, ?_⟩
  · rw [digest, admitted.activationAuthority]
  · rw [candidate, admitted.activationCandidate, admitted.candidateDigest]
  · rw [nonce, admitted.activationNonce]

end

section

variable [Hashlib] {schedule : Schedule Call.program World}
  (environment : EnvironmentOnly schedule) {world : World} (fresh : world.Fresh)
  {pool : Pool Call.program World}
  (steps : Pool.Steps World.exec schedule (Pool.initial Call.program world) pool)

include environment fresh steps

omit fresh in
/-- An effect was applied by some thread. -/
theorem effect_applied (empty : ∀ network effectId, world.effect network effectId = none)
    {network : Nat} {effectId : Str} {effect : NetworkEffect}
    (recorded : pool.shared.effect network effectId = some effect) :
    ∃ thread ∈ pool.threads, ∃ draw,
      ⟨.apply network effect draw, .ok effectId⟩ ∈ thread.past := by
  obtain ⟨thread, member, event, performed, draw, rfl⟩ := Pool.provenance
    (fun state => state.effect network effectId = some effect)
    (fun event : Event system => ∃ draw, event = ⟨.apply network effect draw, .ok effectId⟩)
    (fun op state => (World.exec_effect op state).origin)
    (fun before after allowed shown => by rwa [(environment _ _ allowed).effect] at shown)
    (by simp [empty]) steps recorded
  exact ⟨thread, member, draw, performed⟩

omit fresh in
/-- An evidence record was committed by some thread. -/
theorem evidence_committed (unrecorded : world.Unrecorded) {evidenceId : Str} {record : EvidenceRecord}
    (stored : pool.shared.evidence evidenceId = some record) :
    ∃ thread ∈ pool.threads, ∃ fields committed,
      ⟨.commitEvidence fields, .ok committed⟩ ∈ thread.past ∧
        EvidenceOrigin evidenceId record fields committed := by
  obtain ⟨thread, member, event, performed, fields, committed, rfl, origin⟩ := Pool.provenance
    (fun state => state.evidence evidenceId = some record)
    (fun event : Event system => ∃ fields committed, event = ⟨.commitEvidence fields, .ok committed⟩ ∧
      EvidenceOrigin evidenceId record fields committed)
    (fun op state => (World.exec_evidence op state).origin)
    (fun before after allowed shown => by rwa [(environment _ _ allowed).evidence] at shown)
    (by simp [unrecorded evidenceId]) steps stored
  exact ⟨thread, member, fields, committed, performed, origin⟩

omit environment fresh in
/-- Committed evidence has the given fields and their digest. -/
theorem committed_record {thread : Thread Call.program} (member : thread ∈ pool.threads)
    {fields : EvidenceFields} {record : EvidenceRecord}
    (committed : ⟨.commitEvidence fields, .ok record⟩ ∈ thread.past) :
    record.toEvidenceFields = fields ∧
      fields.bodyDigest record.previousDigest = .ok record.digest := by
  refine Pool.events_hold
    (fun (event : Event system) _ => event = ⟨.commitEvidence fields, .ok record⟩ →
      record.toEvidenceFields = fields ∧
        fields.bodyDigest record.previousDigest = .ok record.digest)
    ?_ ?_ ?_ steps thread member _ committed rfl
  · intro op state same
    obtain ⟨rfl, answered⟩ := Event.mk.inj same
    obtain ⟨returned, digest, -⟩ := World.exec_commit state (eq_of_heq answered)
    exact ⟨returned, digest⟩
  · exact fun _ _ _ before => before
  · exact fun _ _ _ _ before => before

omit fresh in
/-- Where evidence bodies do not collide, a stored record with the digest of committed
evidence is that evidence. -/
theorem evidence_stored (unrecorded : world.Unrecorded)
    (collisionFree : CollisionFree (fun body => body.1.bodyDigest body.2) (evidenceBodies pool))
    {thread : Thread Call.program} (member : thread ∈ pool.threads) {fields : EvidenceFields}
    {evidence stored : EvidenceRecord} {evidenceId : Str}
    (committed : ⟨.commitEvidence fields, .ok evidence⟩ ∈ thread.past)
    (held : pool.shared.evidence evidenceId = some stored) (same : stored.digest = evidence.digest) :
    stored.SameInstant evidence := by
  obtain ⟨thread', member', fields', committed', performed, origin⟩ :=
    evidence_committed environment steps unrecorded held
  obtain ⟨returned, digest⟩ := committed_record steps member committed
  have occurs : (fields, evidence.previousDigest) ∈ evidenceBodies pool :=
    ⟨thread, member, evidence, committed, rfl⟩
  have occurs' : (fields', committed'.previousDigest) ∈ evidenceBodies pool :=
    ⟨thread', member', committed', performed, rfl⟩
  have digest' : fields'.bodyDigest committed'.previousDigest = .ok evidence.digest := by
    rw [origin.digest, ← same, origin.agrees.digest]
  have body := collisionFree _ occurs _ occurs' _ digest digest'
  obtain ⟨rfl, previous⟩ := Prod.mk.inj body
  have equal : committed' = evidence := by
    have digests := origin.agrees.digest.symm.trans same
    have fields := origin.returned.trans returned.symm
    cases committed'
    cases evidence
    simp_all
  rw [← equal]
  exact origin.agrees

/-- Where authorities do not collide, the authority of a request that has passed the
guards was issued by some thread, for a candidate with the presented digest. -/
theorem cleared_issued (collisionFree : CollisionFree authorityDigest (authorities pool))
    {thread : Thread Call.program} (member : thread ∈ pool.threads) {sink : NetworkFinalitySink}
    {request : SinkRequest} {draw : Option Str} {authority : NetworkFinalityAuthority}
    (call : thread.call = .verifyAndEffectuate sink request draw)
    (cleared : Cleared sink request authority thread.past) :
    ∃ issuer ∈ pool.threads, ∃ ped draws candidate now decision evidence activation,
      issuer.call = .validateAndIssue ped draws candidate ∧
        ped.Issued draws candidate now decision evidence authority activation issuer.past ∧
        candidateDigest request.candidate = .ok activation.candidateDigest := by
  obtain ⟨issuer, issuing, activation, put, vouched⟩ :=
    cleared_vouched environment.activationsKept fresh steps member cleared
  obtain ⟨ped, draws, candidate, now, decision, evidence, issued, call', facts, returned⟩ :=
    issued_of_thread put
  obtain ⟨_, _, _, admitted, -⟩ := cleared
  have presented : authority ∈ authorities pool :=
    ⟨thread, member, .inl (by rw [call]; exact admitted.presented)⟩
  obtain rfl := collisionFree _ presented _ ⟨issuer, issuing, .inr returned⟩ _
    vouched.authorityDigest facts.prepared.authorityDigest
  exact ⟨issuer, issuing, ped, draws, candidate, now, decision, evidence, activation, call', facts,
    vouched.candidateDigest⟩

end

/-! ### The reference run -/

/-- A finished issuing call has returned the authority of its result, and no other. -/
theorem returned_turn [Hashlib] {ped : ProtectedEnforcementDomain} {draws : IssueDraws}
    {candidate : NetworkCandidateAct} {before : World} {decision : NetworkValidationDecision}
    {issued authority : NetworkFinalityAuthority}
    {after : World} (ran : (ped.validateAndIssue draws candidate).run World.exec before =
      (.ok ⟨decision, some issued⟩, after))
    (returned : Returned (Turn.thread Call.program World.exec
      ⟨.validateAndIssue ped draws candidate, before⟩) authority) : authority = issued := by
  obtain ⟨result, ended, carried⟩ := returned
  have outcome : ((ped.validateAndIssue draws candidate).run World.exec before).1 = .ok result :=
    ended_eq_done.mp ended
  rw [ran] at outcome
  obtain rfl := Except.ok.inj outcome
  exact (Option.some.inj carried).symm

/-- The calls of the reference run are given or return one authority. -/
theorem authorities_reference {authority : NetworkFinalityAuthority}
    (occurs : authority ∈ @authorities .checksum Reference.pool) :
    authority = Reference.authority := by
  obtain ⟨thread, member, occurs⟩ := occurs
  obtain ⟨turn, listed, rfl⟩ := List.mem_map.mp member
  rcases List.mem_pair.mp listed with rfl | rfl
  · obtain ⟨decision, ran⟩ := Reference.issued_authority
    rw [Reference.issued] at ran
    rcases occurs with given | returned
    · cases given
    · exact @returned_turn .checksum _ _ _ _ _ _ _ _ ran returned
  · rcases occurs with given | ⟨result, -, carried⟩
    · exact (Option.some.inj given).symm
    · cases carried

/-- The calls of the reference run are given one candidate. -/
theorem candidates_reference {candidate : NetworkCandidateAct}
    (occurs : candidate ∈ @candidates .checksum Reference.pool) :
    candidate = Reference.candidate := by
  obtain ⟨thread, member, rfl⟩ := occurs
  obtain ⟨turn, listed, rfl⟩ := List.mem_map.mp member
  rw [Turn.thread_call]
  rcases List.mem_pair.mp listed with rfl | rfl
  · simp only [Call.candidate]
  · simp only [Call.candidate, Reference.request]

end NetworkFinality
