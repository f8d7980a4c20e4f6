import NetworkFinality.Safety.Currency
import NetworkFinality.Spec.Outcome

/-!
# The state that an authority binds

An issuing call reads the protected state three times: to validate the candidate, for
the snapshots of its decision and the evidence of it, and for the binding of the
authority. Nothing keeps the state in between, and what is bound is never compared with
what was validated. The readings agree exactly as long as the environment leaves what a
call has read and is going to read again.
-/

namespace NetworkFinality

open Python Semantics Procedure

/-- The authority binds the state that its candidate was validated against, that its
decision shows and that its evidence names. -/
structure BoundAsValidated (candidate : NetworkCandidateAct) (decision : NetworkValidationDecision)
    (evidence : EvidenceRecord) (authority : NetworkFinalityAuthority) : Prop where
  policyEpoch : authority.binding.policyEpoch = candidate.policyState.policyEpoch
  authorityEpoch : authority.binding.authorityEpoch = candidate.policyState.authorityEpoch
  revocationEpoch : authority.binding.revocationEpoch = candidate.policyState.revocationEpoch
  topologyEpoch : authority.binding.topologyEpoch = decision.networkState.topologyEpoch
  configurationEpoch :
    authority.binding.configurationEpoch = decision.networkState.configurationEpoch
  reference : authority.binding.protectedStateReference = decision.protectedState.stateReference.1
  recorded : evidence.protectedStateReference = authority.binding.protectedStateReference

section

variable [Hashlib] {schedule : Schedule Call.program World} {world : World}
  {pool : Pool Call.program World} {thread : Thread Call.program}

/-- The call may still issue an authority. -/
def MayIssue (thread : Thread Call.program) : Prop :=
  ∃ activation, thread.rest.MayPerform (Op.putActivation activation)

/-- The environment leaves what calls that may still issue an authority have read and may
read again. -/
def Consistent (schedule : Schedule Call.program World) : Prop :=
  ∀ pool world, schedule.changes pool world → ∀ thread ∈ pool.threads, MayIssue thread →
    ∀ event ∈ thread.past, event.op.readsBinding = true → thread.rest.MayPerform event.op →
      (World.exec event.op world).1 = (World.exec event.op pool.shared).1

/-- Any call may start at any time, and the environment leaves what calls that may still
issue an authority have read and may read again. -/
def consistent : Schedule Call.program World where
  starts _ _ := True
  changes pool world :=
    ∀ thread ∈ pool.threads, MayIssue thread →
      ∀ event ∈ thread.past, event.op.readsBinding = true → thread.rest.MayPerform event.op →
        (World.exec event.op world).1 = (World.exec event.op pool.shared).1

theorem consistent_consistent : Consistent consistent := fun _ _ allowed => allowed

/-- The call has put an activation record, or may still do so. -/
def Issuing (thread : Thread Call.program) : Prop :=
  (∃ activation, ⟨.putActivation activation, .ok ()⟩ ∈ thread.past) ∨ MayIssue thread

theorem Issuing.earlier {op : Op} {next : Op.Answer op → Program thread.call.Result}
    {calls : thread.rest = .call op next} {answer : Op.Answer op}
    (issuing : Issuing (thread.advance calls answer)) : Issuing thread := by
  have path : thread.rest.Path [⟨op, answer⟩] (next answer) := by
    rw [calls]
    exact .next .here
  rcases issuing with ⟨activation, put⟩ | ⟨activation, performs⟩
  · rcases List.mem_append.mp put with before | now
    · exact .inl ⟨activation, before⟩
    · obtain ⟨rfl, -⟩ := Event.mk.inj (List.mem_singleton.mp now)
      exact .inr ⟨activation, [], next, by rw [calls]; exact .here⟩
  · exact .inr ⟨activation, performs.earlier path⟩

/-- A call that has put its activation record performs nothing more. -/
theorem Issuing.mayIssue {op : Op} (issuing : Issuing thread)
    (performs : thread.rest.MayPerform op) : MayIssue thread := by
  rcases issuing with ⟨activation, put⟩ | may
  · obtain ⟨_, _, _, _, _, _, _, _, _, rfl, -⟩ := thread_of_put put
    obtain ⟨past, next, path⟩ := performs
    obtain ⟨-, impossible⟩ := path_done_iff.mp path
    cases impossible
  · exact may

/-- Whatever an issuing call reads twice, it reads the same. -/
theorem readings_agree (consistent : Consistent schedule)
    (steps : Pool.Steps World.exec schedule (Pool.initial Call.program world) pool)
    (member : thread ∈ pool.threads) (issuing : Issuing thread) {op : Op}
    {first second : Op.Answer op} (reads : op.readsBinding = true)
    (read : ⟨op, first⟩ ∈ thread.past) (read' : ⟨op, second⟩ ∈ thread.past) : first = second := by
  have observes : Pool.Observes World.exec fun op : Op => op.readsBinding = true :=
    ⟨fun op reads => World.observes.stable op (Op.observes_of_readsBinding reads)⟩
  refine Pool.answers_agree observes Issuing ?_ ?_ steps thread member issuing op first second
    reads read read'
  · intro thread op next calls answer
    exact Issuing.earlier
  · intro pool world allowed thread member issuing event performed reads again
    exact consistent pool world allowed thread member (issuing.mayIssue again) event performed
      reads again

/-- What a thread has committed is a record of the fields it was asked to commit. -/
theorem committed_fields
    (steps : Pool.Steps World.exec schedule (Pool.initial Call.program world) pool)
    (member : thread ∈ pool.threads) {fields : EvidenceFields} {record : EvidenceRecord}
    (committed : ⟨.commitEvidence fields, .ok record⟩ ∈ thread.past) :
    record.toEvidenceFields = fields := by
  refine Pool.events_hold
    (fun (event : Event system) _ => event = ⟨.commitEvidence fields, .ok record⟩ →
      record.toEvidenceFields = fields)
    ?_ (fun _ _ _ => id) (fun _ _ _ _ => id) steps thread member _ committed rfl
  intro op state same
  obtain ⟨rfl, answered⟩ := Event.mk.inj same
  exact (World.exec_commit state (eq_of_heq answered)).1

/-- Under every interleaving with an environment that leaves what issuing calls are going to
read again, an authority binds the state that its candidate was validated against, and
that its decision and its evidence show. -/
theorem authorities_bind_validated (consistent : Consistent schedule)
    (steps : Pool.Steps World.exec schedule (Pool.initial Call.program world) pool) :
    ∀ ped draws candidate past decision authority reached,
      (⟨.validateAndIssue ped draws candidate, past, .done ⟨decision, some authority⟩, reached⟩ :
        Thread Call.program) ∈ pool.threads →
      ∃ evidence, ⟨.commitEvidence evidence.toEvidenceFields, .ok evidence⟩ ∈ past ∧
        authority.binding.evidenceId = evidence.evidenceId ∧
        authority.binding.evidenceDigest.value.1 = evidence.digest ∧
        BoundAsValidated candidate decision evidence authority := by
  intro ped draws candidate past decision authority reached member
  obtain ⟨now, evidence, activation, issued⟩ :=
    ProtectedEnforcementDomain.issued_of_returns reached
  have agree : ∀ {op : Op} {first second : Op.Answer op}, op.readsBinding = true →
      ⟨op, first⟩ ∈ past → ⟨op, second⟩ ∈ past → first = second :=
    fun reads => readings_agree consistent steps member (.inl ⟨activation, issued.put⟩) reads
  have epochs_agree : ∀ {epoch : Epoch} {first second : Nat},
      ⟨.epoch epoch, (first : Int)⟩ ∈ past → ⟨.epoch epoch, (second : Int)⟩ ∈ past →
        first = second :=
    fun read read' => Int.ofNat.inj (agree rfl read read')
  have bound := issued.prepared.binding
  obtain ⟨reference, counter, read, committed⟩ := issued.committed
  have fields := committed_fields steps member committed
  refine ⟨evidence, by rwa [fields], bound.evidenceId, bound.evidenceDigest, ?_⟩
  exact {
    policyEpoch := epochs_agree (bound.epochs .policy) issued.validated.policyEpoch
    authorityEpoch := epochs_agree (bound.epochs .authority) issued.validated.authorityEpoch
    revocationEpoch := epochs_agree (bound.epochs .revocation) issued.validated.revocationEpoch
    topologyEpoch := epochs_agree (bound.epochs .topology) issued.decided.topologyEpoch
    configurationEpoch :=
      epochs_agree (bound.epochs .configuration) issued.decided.configurationEpoch
    reference := agree rfl bound.reference issued.decided.stateReference
    recorded := by
      have named : evidence.protectedStateReference = reference :=
        congrArg EvidenceFields.protectedStateReference fields
      rw [named]
      exact agree rfl read bound.reference }

/-- What a call does once its candidate is screened. -/
def ProtectedEnforcementDomain.conclude (ped : ProtectedEnforcementDomain) (draws : IssueDraws)
    (candidate : NetworkCandidateAct) (now : DateTime) (denial : Option Denial) :
    Program PEDResult := do
  let decision ← ped.decision candidate denial draws.decisionId
  let (evidence, decision) ← ProtectedEnforcementDomain.record candidate decision draws now
  if denial.isSome then return ⟨decision, none⟩
  let authority ← ped.issue candidate evidence draws now
  return ⟨decision, some authority⟩

/-- A call that returns is screened and then concludes. -/
theorem concludes_of_run {after : World} {ped : ProtectedEnforcementDomain} {draws : IssueDraws}
    {candidate : NetworkCandidateAct} {result : PEDResult}
    (ran : (ped.validateAndIssue draws candidate).run World.exec world = (.ok result, after)) :
    ∃ denial screened,
      (ped.screen candidate world.clock).run World.exec world = (.ok denial, screened) ∧
      (ped.conclude draws candidate world.clock denial).run World.exec screened =
        (.ok result, after) := by
  rw [ProtectedEnforcementDomain.validateAndIssue, run_ask_bind_ok rfl] at ran
  exact (run_bind_ok World.exec).mp ran

/-- An accepted call concludes in the world that the environment has changed since. -/
theorem concludes_after_change {initial screened changed final : World}
    {log : List (Nat × Event system)} {threads : List (Thread Call.program)}
    {ped : ProtectedEnforcementDomain} {draws : IssueDraws} {candidate : NetworkCandidateAct}
    {result : PEDResult}
    (timeline : Timeline World.exec schedule initial log ⟨world, threads⟩)
    (starts : ∀ pool call, schedule.starts pool call)
    (changes : ∀ pool, pool.shared = screened → schedule.changes pool changed)
    (screening : (ped.screen candidate world.clock).run World.exec world = (.ok none, screened))
    (concluding : (ped.conclude draws candidate world.clock none).run World.exec changed =
      (.ok result, final)) :
    ∃ later past reached, Timeline World.exec schedule initial later
      ⟨final, threads ++ [⟨.validateAndIssue ped draws candidate, past, .done result, reached⟩]⟩ := by
  obtain ⟨screen, returned, screen_answered⟩ := (run_ok_iff World.exec).mp screening
  obtain ⟨concluded, ended, concluded_answered⟩ := (run_ok_iff World.exec).mp concluding
  have path : (Call.program (.validateAndIssue ped draws candidate)).Path
      (⟨.clock, world.clock⟩ :: screen) (ped.conclude draws candidate world.clock none) :=
    .next (returned.bind fun denial => ped.conclude draws candidate world.clock denial)
  obtain ⟨later, reached⟩ := timeline.interrupted
    (starts _ (.validateAndIssue ped draws candidate)) path ⟨rfl, screen_answered⟩ changes ended
    concluded_answered
  exact ⟨later, _, _, reached⟩

end

namespace Reference

/-- The world in which the candidate has been accepted. -/
def acceptedWorld : World :=
  { start.world with
    nonceRegistry := insert candidate.freshness.nonce.1 start.world.nonceRegistry }

theorem accepted : (start.ped.screen candidate start.world.clock).run (@World.exec .checksum)
    start.world = (.ok none, acceptedWorld) := by
  obtain ⟨decision, ran⟩ := issued_authority
  rw [issued] at ran
  obtain ⟨denial, _, _, _, _, screened, _, screening, -, -, ending⟩ :=
    @ProtectedEnforcementDomain.validateAndIssue_run .checksum _ _ _ _ _ _ ran
  rcases @ProtectedEnforcementDomain.screen_run .checksum _ _ _ _ _ screening with
    ⟨rfl, -, reserved⟩ | ⟨denied, -⟩
  · rw [acceptedWorld, ← reserved]
    exact screening
  · cases denial with
    | none => exact absurd rfl denied
    | some denial =>
        obtain ⟨absent, -⟩ := ending
        cases absent

theorem accepted_concludes : ∃ decision,
    (@ProtectedEnforcementDomain.conclude .checksum start.ped draws candidate start.world.clock
      none).run (@World.exec .checksum) acceptedWorld =
        (.ok ⟨decision, some authority⟩, issuedWorld) := by
  obtain ⟨decision, ran⟩ := issued_authority
  rw [issued] at ran
  obtain ⟨denial, screened, screening, concluding⟩ := @concludes_of_run .checksum _ _ _ _ _ _ ran
  obtain ⟨rfl, rfl⟩ : none = denial ∧ acceptedWorld = screened := by
    simpa using accepted.symm.trans screening
  exact ⟨decision, concluding⟩

theorem authorities_bind_validated_issued :
    ∃ pool, Pool.Steps (@World.exec .checksum) (@consistent .checksum)
        (Pool.initial (@Call.program .checksum) start.world) pool ∧
      ∃ past decision reached,
        (⟨.validateAndIssue start.ped draws candidate, past, .done ⟨decision, some authority⟩,
          reached⟩ : Thread (@Call.program .checksum)) ∈ pool.threads ∧
        ∃ evidence, ⟨.commitEvidence evidence.toEvidenceFields, .ok evidence⟩ ∈ past ∧
          authority.binding.evidenceId = evidence.evidenceId ∧
          authority.binding.evidenceDigest.value.1 = evidence.digest ∧
          BoundAsValidated candidate decision evidence authority := by
  obtain ⟨decision, concluding⟩ := accepted_concludes
  have none_yet : Timeline (@World.exec .checksum) (@consistent .checksum) start.world []
      (Pool.initial (@Call.program .checksum) start.world) := .initial
  obtain ⟨later, past, reached, timeline⟩ :=
    @concludes_after_change .checksum _ _ _ _ _ _ _ _ _ _ _ _ none_yet (fun _ _ => trivial)
      (fun pool shared thread _ _ _ _ _ _ => by rw [shared]) accepted concluding
  exact ⟨_, timeline.steps, past, decision, reached, by simp,
    @authorities_bind_validated .checksum _ _ _ (@consistent_consistent .checksum) timeline.steps
      start.ped draws candidate past decision authority reached (by simp)⟩

/-- What the call concludes once the revocation epoch has advanced. -/
def concluded : Except Exit PEDResult × World :=
  (@ProtectedEnforcementDomain.conclude .checksum start.ped draws candidate start.world.clock
    none).run (@World.exec .checksum) acceptedWorld.revoke

theorem concluded_epoch :
    (authorityOf concluded.1).map (·.binding.revocationEpoch) =
      some (candidate.policyState.revocationEpoch + 1) := by
  decide +kernel

/-- The revocation lands between the validation of a candidate and the binding of its
authority, which binds an epoch that the candidate was never validated against. -/
theorem revocation_inherited :
    ∃ pool, Pool.Steps (@World.exec .checksum) (@unrestricted .checksum)
        (Pool.initial (@Call.program .checksum) start.world) pool ∧
      ∃ ped draws candidate past decision authority reached,
        (⟨.validateAndIssue ped draws candidate, past, .done ⟨decision, some authority⟩, reached⟩ :
          Thread (@Call.program .checksum)) ∈ pool.threads ∧
        candidate.policyState.revocationEpoch < authority.binding.revocationEpoch := by
  obtain ⟨authority, returned, epoch⟩ := Option.map_eq_some_iff.mp concluded_epoch
  obtain ⟨decision, ran⟩ := ran_authority returned
  rw [concluded] at ran
  have none_yet : Timeline (@World.exec .checksum) (@unrestricted .checksum) start.world []
      (Pool.initial (@Call.program .checksum) start.world) := .initial
  obtain ⟨later, past, reached, timeline⟩ :=
    @concludes_after_change .checksum _ _ _ _ _ _ _ _ _ _ _ _ none_yet (fun _ _ => trivial)
      (fun pool shared => by
        change World.Environment pool.shared acceptedWorld.revoke
        rw [shared]
        exact acceptedWorld.revoke_environment)
      accepted ran
  exact ⟨_, timeline.steps, start.ped, draws, candidate, past, decision, authority, reached,
    by simp, by omega⟩

end Reference
end NetworkFinality
