import NetworkFinality.Refinement.Steps
import NetworkFinality.Spec.Acceptance
import NetworkFinality.Spec.Ped

/-!
# What a call of the enforcement domain leaves

A call that runs without interference is the sequence of its parts: screening
reserves the nonce of an accepted candidate, recording advances the counter and
appends evidence, and issuing puts an activation record. Each part is described by
the world it leaves.
-/

namespace NetworkFinality

open Python Semantics Procedure

namespace ProtectedEnforcementDomain

variable [Hashlib] {ped : ProtectedEnforcementDomain} {candidate : NetworkCandidateAct}
  {draws : IssueDraws} {now : DateTime} {world after : World}

/-- A program of reads leaves the world as it is. -/
theorem reads_run {ε α : Type} {program : Procedure system ε α} {result : α}
    (reads : OnlyReads program) (ran : program.run World.exec world = (.ok result, after)) :
    after = world := by
  have kept := run_readOnly World.exec (reads.mono fun _ => World.exec_readOnly) world
  rwa [ran] at kept

/-- The candidate is valid and its nonce is new. -/
def Grants (ped : ProtectedEnforcementDomain) (candidate : NetworkCandidateAct) (world : World) :
    Prop :=
  ((ped.policy.validate candidate world.clock).run World.exec world).1 = .ok () ∧
    candidate.freshness.nonce.1 ∉ world.nonceRegistry

/-- Screening denies all but granted candidates, and reserves the nonces of those. -/
theorem screen_run {denial : Option Denial}
    (ran : (ped.screen candidate world.clock).run World.exec world = (.ok denial, after)) :
    (denial = none ∧ ped.Grants candidate world ∧
        after = { world with
          nonceRegistry := insert candidate.freshness.nonce.1 world.nonceRegistry }) ∨
      (denial ≠ none ∧ ¬ ped.Grants candidate world ∧ after = world) := by
  obtain ⟨validated, middle, attempted, reserving⟩ := (run_bind_ok World.exec).mp ran
  rw [run_attempt] at attempted
  obtain ⟨outcome, rest⟩ := Prod.mk.inj attempted
  obtain rfl : middle = world := rest.symm.trans (run_readOnly World.exec
    (PolicyConfig.validate_reads.mono fun _ => World.exec_readOnly) world)
  cases validated with
  | error reason =>
      obtain ⟨rfl, rfl⟩ : some reason = denial ∧ middle = after := by simpa using reserving
      refine .inr ⟨by simp, ?_, rfl⟩
      rintro ⟨accepted, -⟩
      simp [accepted] at outcome
  | ok value =>
      have accepted := Except.ok.inj outcome
      by_cases seen : candidate.freshness.nonce.1 ∈ middle.nonceRegistry
      · obtain ⟨rfl, rfl⟩ : _ = denial ∧ middle = after := by
          simpa [ask, perform, World.exec, NonceRegistry.reserve, seen] using reserving
        exact .inr ⟨by simp, fun grants => grants.2 seen, rfl⟩
      · obtain ⟨rfl, rfl⟩ : none = denial ∧ _ = after := by
          simpa [ask, perform, World.exec, NonceRegistry.reserve, seen] using reserving
        exact .inl ⟨rfl, ⟨accepted, seen⟩, rfl⟩

omit [Hashlib] in
/-- What the decision says, and that its predicates all hold exactly when it allows. -/
theorem decision_verdict {denial : Option Denial} {decisionId : Str} {past : List (Event system)}
    {decision : NetworkValidationDecision}
    (returned : (ped.decision candidate denial decisionId).Returns past decision) :
    decision.denialCode = denial.map Denial.code ∧
      decision.validatedPredicates.allTrue = denial.isNone := by
  obtain ⟨attested, _, _, attesting, snapshots, rfl⟩ := returns_bind.mp returned
  simp only [ask, perform, call_bind, done_bind, returns_call, returns_orRaise_bind, pure_eq_done,
    returns_done] at snapshots
  obtain ⟨topology, _, rfl, configuration, _, rfl, topologyEpoch, topologyValid,
    configurationEpoch, configurationValid, reference, _, rfl, counter, _, rfl, stateReference,
    referenceValid, monotonicCounter, counterValid, rfl, rfl⟩ := snapshots
  refine ⟨rfl, ?_⟩
  cases denial with
  | none =>
      obtain ⟨-, rfl⟩ := returns_done.mp attesting
      rfl
  | some denial => simp [ValidatedPredicates.allTrue]

/-- Recording advances the counter and commits evidence of the decision. -/
theorem record_run {decision result : NetworkValidationDecision} {evidence : EvidenceRecord}
    (ran : (record candidate decision draws now).run World.exec world =
      (.ok (evidence, result), after)) :
    ∃ store, world.evidenceStore.commit (evidenceOf candidate decision draws now
          world.state.protectedStateReference (world.state.monotonicCounter + 1)) =
        .ok (evidence, store) ∧
      after = { world with state := world.state.advanceCounter.2, evidenceStore := store } ∧
      result = {
        decision with
        evidenceId := some evidence.evidenceId
        protectedState := {
          decision.protectedState with monotonicCounter := world.state.monotonicCounter + 1 } } := by
  obtain ⟨past, returned, answered⟩ := (run_ok_iff World.exec).mp ran
  obtain ⟨reference, counter, rfl, rfl⟩ := record_returns.mp returned
  obtain ⟨counted, read, committed, rfl⟩ := answered
  obtain rfl : counter = world.state.monotonicCounter + 1 := counted
  obtain rfl : reference = world.state.protectedStateReference := read
  rcases outcome : world.evidenceStore.commit (evidenceOf candidate decision draws now
    world.state.protectedStateReference (world.state.monotonicCounter + 1)) with error | ⟨record, store⟩
  · simp [World.exec, ProtectedNetworkState.advanceCounter, outcome] at committed
  · obtain rfl : evidence = record := by
      simpa [World.exec, ProtectedNetworkState.advanceCounter, outcome] using committed
    refine ⟨store, rfl, ?_, rfl⟩
    simp [World.exec, ProtectedNetworkState.advanceCounter, outcome]

/-- Issuing puts the activation record of the authority it prepares. -/
theorem issue_run {evidence : EvidenceRecord} {authority : NetworkFinalityAuthority}
    (ran : (ped.issue candidate evidence draws now).run World.exec world = (.ok authority, after)) :
    ∃ activation past store, ped.Prepared candidate evidence draws now authority activation past ∧
      world.activationStore.put activation = .ok store ∧
      after = { world with activationStore := store } := by
  obtain ⟨⟨prepared, activation⟩, middle, preparing, storing⟩ := (run_bind_ok World.exec).mp ran
  obtain rfl := reads_run prepare_reads preparing
  obtain ⟨past, returned, -⟩ := (run_ok_iff World.exec).mp preparing
  cases outcome : middle.activationStore.put activation with
  | error error => simp [ask, perform, World.exec, outcome] at storing
  | ok store =>
      obtain ⟨rfl, rfl⟩ : prepared = authority ∧ _ = after := by
        simpa [ask, perform, World.exec, outcome] using storing
      exact ⟨activation, past, store, prepare_returns returned, outcome, rfl⟩

/-- The parts of a call that returns, each from the world the one before has left. -/
theorem validateAndIssue_run {result : PEDResult}
    (ran : (ped.validateAndIssue draws candidate).run World.exec world = (.ok result, after)) :
    ∃ denial first past evidence decision screened recorded,
      (ped.screen candidate world.clock).run World.exec world = (.ok denial, screened) ∧
      (ped.decision candidate denial draws.decisionId).Returns past first ∧
      (record candidate first draws world.clock).run World.exec screened =
        (.ok (evidence, decision), recorded) ∧
      match denial with
      | some _ => result = ⟨decision, none⟩ ∧ after = recorded
      | none => ∃ authority,
          (ped.issue candidate evidence draws world.clock).run World.exec recorded =
            (.ok authority, after) ∧
          result = ⟨decision, some authority⟩ := by
  rw [validateAndIssue, run_ask_bind_ok rfl] at ran
  obtain ⟨denial, screened, screening, deciding⟩ := (run_bind_ok World.exec).mp ran
  obtain ⟨first, _, decided, recording⟩ := (run_bind_ok World.exec).mp deciding
  obtain rfl := reads_run decision_reads decided
  obtain ⟨⟨evidence, decision⟩, recorded, committed, ending⟩ :=
    (run_bind_ok World.exec).mp recording
  obtain ⟨past, returned, -⟩ := (run_ok_iff World.exec).mp decided
  refine ⟨denial, first, past, evidence, decision, _, recorded, screening, returned, committed, ?_⟩
  cases denial with
  | some denial => simpa [eq_comm] using ending
  | none =>
      obtain ⟨authority, issued, issuing, ended⟩ := (run_bind_ok World.exec).mp ending
      obtain ⟨rfl, rfl⟩ : _ = result ∧ issued = after := by simpa using ended
      exact ⟨authority, issuing, rfl⟩

end ProtectedEnforcementDomain
end NetworkFinality
