import NetworkFinality.Model.Policy

/-!
# What policy validation establishes

A candidate that passes validation has passed every check on an answer the
validation has read. `Validated` names those answers by the events that hold them.
-/

namespace NetworkFinality

open Python Semantics Procedure

/-- An allowlist was read that is empty or holds the value. -/
def Listed (list : Allowlist) (value : Option Str) (past : List (Event system)) : Prop :=
  ∃ entries : Finset Str, ⟨.allowed list, entries⟩ ∈ past ∧
    (entries = ∅ ∨ ∃ entry ∈ entries, value = some entry)

theorem Listed.mono {list : Allowlist} {value : Option Str} {past later : List (Event system)}
    (listed : Listed list value past) (sub : past ⊆ later) : Listed list value later := by
  obtain ⟨entries, read, holds⟩ := listed
  exact ⟨entries, sub read, holds⟩

/-- Every check of the policy, on answers among the events. -/
structure Validated (config : PolicyConfig) (candidate : NetworkCandidateAct) (now : DateTime)
    (past : List (Event system)) : Prop where
  created : ¬ now < candidate.createdAt
  unexpired : ¬ candidate.expiresAt ≤ now
  age : now.sub candidate.createdAt ≤ config.maxCandidateAge
  policyEpoch : ⟨.epoch .policy, (candidate.policyState.policyEpoch : Int)⟩ ∈ past
  authorityEpoch : ⟨.epoch .authority, (candidate.policyState.authorityEpoch : Int)⟩ ∈ past
  revocationEpoch : ⟨.epoch .revocation, (candidate.policyState.revocationEpoch : Int)⟩ ∈ past
  sinkId : ∃ sinkIds : Finset Str, ⟨.allowed .sinkIds, sinkIds⟩ ∈ past ∧
    candidate.finalitySink.sinkId.1 ∈ sinkIds
  jurisdictionPresent : truthy candidate.networkContext.jurisdiction = true
  jurisdiction : Listed .jurisdictions candidate.networkContext.jurisdiction past
  purpose : Listed .purposes (some candidate.purpose.purposeId.1) past
  actType : config.allowedActTypes = ∅ ∨ candidate.actType.value ∈ config.allowedActTypes
  duration : ∀ duration, candidate.requestedEffect.durationSeconds = some duration →
    (duration : Int) ≤ config.maxEffectDurationSeconds

theorem Validated.mono {config : PolicyConfig} {candidate : NetworkCandidateAct} {now : DateTime}
    {past later : List (Event system)} (validated : Validated config candidate now past)
    (sub : past ⊆ later) : Validated config candidate now later where
  __ := validated
  policyEpoch := sub validated.policyEpoch
  authorityEpoch := sub validated.authorityEpoch
  revocationEpoch := sub validated.revocationEpoch
  sinkId := by
    obtain ⟨sinkIds, read, listed⟩ := validated.sinkId
    exact ⟨sinkIds, sub read, listed⟩
  jurisdiction := validated.jurisdiction.mono sub
  purpose := validated.purpose.mono sub

namespace PolicyConfig

variable {config : PolicyConfig} {candidate : NetworkCandidateAct} {now : DateTime}
  {past : List (Event system)}

theorem denyUnlessListed_returns {list : Allowlist} {value : Option Str} {denial : Denial}
    {result : Unit} (returned : (denyUnlessListed list value denial).Returns past result) :
    Listed list value past := by
  obtain ⟨entries, first, rest, read, checked, rfl⟩ := returns_bind.mp returned
  obtain rfl := returns_ask.mp read
  rcases returns_ite.mp checked with ⟨-, again⟩ | ⟨empty, -⟩
  · obtain ⟨entries', _, _, read', passed, rfl⟩ := returns_bind.mp again
    obtain rfl := returns_ask.mp read'
    refine ⟨entries', by simp, .inr ?_⟩
    simpa using (returns_exitIf.mp passed).1
  · exact ⟨entries, by simp, .inl (not_not.mp empty)⟩

theorem validate_returns {result : Unit}
    (returned : (config.validate candidate now).Returns past result) :
    Validated config candidate now past := by
  simp only [validate, ask, perform, call_bind, done_bind, returns_call, returns_exitIf_bind] at returned
  obtain ⟨created, unexpired, age, policyEpoch, _, rfl, policyMatches, authorityEpoch, _, rfl,
    authorityMatches, revocationEpoch, _, rfl, revocationMatches, sinkIds, _, rfl, sinkListed,
    present, returned⟩ := returned
  obtain ⟨_, listing, _, listed, rest, rfl⟩ := returns_bind.mp returned
  obtain ⟨_, listing', _, listed', rest', rfl⟩ := returns_bind.mp rest
  obtain ⟨required, attesting, _, -, checks, rfl⟩ := returns_bind.mp rest'
  simp only [returns_exitIf_bind, returns_exitIf] at checks
  obtain ⟨-, enabled, duration, -⟩ := checks
  have jurisdiction := denyUnlessListed_returns listed
  have purpose := denyUnlessListed_returns listed'
  obtain rfl := not_not.mp policyMatches
  obtain rfl := not_not.mp authorityMatches
  obtain rfl := not_not.mp revocationMatches
  refine ⟨created, unexpired, by omega, by simp, by simp, by simp, ⟨sinkIds, by simp,
    not_not.mp sinkListed⟩, by simpa using present, ?_, ?_, ?_, ?_⟩
  · apply jurisdiction.mono
    intro event member
    simp [member]
  · apply purpose.mono
    intro event member
    simp [member]
  · by_contra neither
    exact enabled ⟨fun empty => neither (.inl empty), fun listed => neither (.inr listed)⟩
  · intro seconds requested
    by_contra beyond
    exact duration ⟨seconds, requested, by omega⟩

theorem requiresAttestation_state {ε : Type} :
    OnlyState (config.requiresAttestation : Procedure system ε Bool) := by
  unfold requiresAttestation
  split
  · exact uses_done
  · exact state_ask rfl

theorem denyUnlessListed_state {list : Allowlist} {value : Option Str} {denial : Denial} :
    OnlyState (denyUnlessListed list value denial) := by
  apply Uses.bind (state_ask rfl)
  intro entries
  split
  · exact Uses.bind (state_ask rfl) fun _ => uses_exitIf
  · exact uses_done

/-- Validation reads nothing but the protected state. -/
theorem validate_state : OnlyState (config.validate candidate now) := by
  refine Uses.bind uses_exitIf fun _ => Uses.bind uses_exitIf fun _ => ?_
  refine Uses.bind uses_exitIf fun _ => ?_
  refine Uses.bind (state_ask rfl) fun policyEpoch => Uses.bind uses_exitIf fun _ => ?_
  refine Uses.bind (state_ask rfl) fun authorityEpoch => Uses.bind uses_exitIf fun _ => ?_
  refine Uses.bind (state_ask rfl) fun revocationEpoch => Uses.bind uses_exitIf fun _ => ?_
  refine Uses.bind (state_ask rfl) fun sinkIds => Uses.bind uses_exitIf fun _ => ?_
  refine Uses.bind uses_exitIf fun _ => Uses.bind denyUnlessListed_state fun _ => ?_
  refine Uses.bind denyUnlessListed_state fun _ => ?_
  refine Uses.bind requiresAttestation_state fun required => Uses.bind uses_exitIf fun _ => ?_
  exact Uses.bind uses_exitIf fun _ => Uses.bind uses_exitIf fun _ => uses_exitIf

/-- Validation writes nothing. -/
theorem validate_reads : OnlyReads (config.validate candidate now) := validate_state.reads

end PolicyConfig
end NetworkFinality
