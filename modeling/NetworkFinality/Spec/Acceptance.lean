import NetworkFinality.Spec.Policy

/-!
# When a policy accepts a candidate

Validation that runs without interference accepts a candidate exactly when every
check holds of the protected state. An empty list of jurisdictions, purposes or act
types restricts nothing; an empty list of sinks admits none.
-/

namespace NetworkFinality

open Python Semantics Procedure

/-- An allowlist that restricts nothing, or holds the value. -/
def Admits (entries : Finset Str) (value : Option Str) : Prop :=
  entries = ∅ ∨ ∃ entry ∈ entries, value = some entry

namespace PolicyConfig

/-- Every check of the policy, on the protected state. -/
structure Accepts (config : PolicyConfig) (state : ProtectedNetworkState)
    (candidate : NetworkCandidateAct) (now : DateTime) : Prop where
  created : ¬ now < candidate.createdAt
  unexpired : ¬ candidate.expiresAt ≤ now
  age : now.sub candidate.createdAt ≤ config.maxCandidateAge
  policyEpoch : candidate.policyState.policyEpoch = state.policyEpoch
  authorityEpoch : candidate.policyState.authorityEpoch = state.authorityEpoch
  revocationEpoch : candidate.policyState.revocationEpoch = state.revocationEpoch
  sinkId : candidate.finalitySink.sinkId.1 ∈ state.allowedSinkIds
  jurisdictionPresent : truthy candidate.networkContext.jurisdiction = true
  jurisdiction : Admits state.allowedJurisdictions candidate.networkContext.jurisdiction
  purpose : Admits state.allowedPurposes (some candidate.purpose.purposeId.1)
  attestation : config.requireAttestation = true ∨ state.requireAttestation = true →
    truthy candidate.initiator.runtimeAttestationDigest = true
  actType : config.allowedActTypes = ∅ ∨ candidate.actType.value ∈ config.allowedActTypes
  duration : ∀ duration, candidate.requestedEffect.durationSeconds = some duration →
    (duration : Int) ≤ config.maxEffectDurationSeconds

section

variable [Hashlib] {config : PolicyConfig} {candidate : NetworkCandidateAct} {now : DateTime}
  {world after : World}

private theorem denyUnlessListed_run {list : Allowlist} {value : Option Str} {denial : Denial}
    {result : Unit} : (denyUnlessListed list value denial).run World.exec world = (.ok result, after) ↔
      Admits (world.state.allowed list) value ∧ after = world := by
  rw [denyUnlessListed, run_ask_bind_ok rfl]
  by_cases empty : (World.exec (.allowed list) world).1 = ∅
  · rw [if_neg (not_not.mpr empty)]
    change world.state.allowed list = ∅ at empty
    simp [empty, Admits, eq_comm]
  · rw [if_pos empty, run_ask_bind_ok rfl, run_exitIf_ok]
    change world.state.allowed list ≠ ∅ at empty
    simp [World.exec, empty, Admits]

private theorem requiresAttestation_run {ε : Type} {required : Bool} :
    (config.requiresAttestation : Procedure system ε Bool).run World.exec world =
        (.ok required, after) ↔
      required = (config.requireAttestation || world.state.requireAttestation) ∧ after = world := by
  cases configured : config.requireAttestation <;>
    simp [requiresAttestation, configured, ask, perform, World.exec, eq_comm]

/-- Validation returns, and changes nothing, exactly for the candidates the policy
accepts. -/
theorem validate_accepts :
    (config.validate candidate now).run World.exec world = (.ok (), after) ↔
      config.Accepts world.state candidate now ∧ after = world := by
  simp only [validate, exitIf_bind, run_unless_ok]
  rw [run_ask_bind_ok rfl, run_unless_ok, run_ask_bind_ok rfl, run_unless_ok, run_ask_bind_ok rfl,
    run_unless_ok, run_ask_bind_ok rfl, run_unless_ok, run_unless_ok]
  simp only [run_bind_ok, run_unless_ok, denyUnlessListed_run, requiresAttestation_run,
    run_exitIf_ok]
  constructor
  · rintro ⟨created, unexpired, age, policyEpoch, authorityEpoch, revocationEpoch, sinkId, present,
      _, _, ⟨jurisdiction, rfl⟩, _, _, ⟨purpose, rfl⟩, _, _, ⟨rfl, rfl⟩, attestation, actType,
      duration, -, rfl⟩
    refine ⟨⟨created, unexpired, by omega, not_not.mp policyEpoch, not_not.mp authorityEpoch,
      not_not.mp revocationEpoch, not_not.mp sinkId, by simpa using present, jurisdiction, purpose,
      ?_, ?_, ?_⟩, rfl⟩
    · intro required
      by_contra missing
      exact attestation ⟨by simpa using required, by simpa using missing⟩
    · by_contra neither
      exact actType ⟨fun empty => neither (.inl empty), fun listed => neither (.inr listed)⟩
    · intro seconds requested
      by_contra beyond
      exact duration ⟨seconds, requested, by omega⟩
  · rintro ⟨accepts, rfl⟩
    have nonempty := List.ne_nil_of_length_pos candidate.resourceScope.resourceIds.2
    refine ⟨accepts.created, accepts.unexpired, not_lt.mpr accepts.age, not_not.mpr accepts.policyEpoch,
      not_not.mpr accepts.authorityEpoch, not_not.mpr accepts.revocationEpoch,
      not_not.mpr accepts.sinkId, by simp [accepts.jurisdictionPresent], (), _,
      ⟨accepts.jurisdiction, rfl⟩, (), _, ⟨accepts.purpose, rfl⟩, _, _, ⟨rfl, rfl⟩, ?_, ?_, ?_,
      nonempty, rfl⟩
    · rintro ⟨required, missing⟩
      rw [accepts.attestation (by simpa using required)] at missing
      cases missing
    · rintro ⟨restricted, unlisted⟩
      exact accepts.actType.elim restricted unlisted
    · rintro ⟨seconds, requested, beyond⟩
      exact absurd (accepts.duration seconds requested) (by omega)

/-- What validation returns, whatever world it leaves. -/
theorem validate_ok :
    ((config.validate candidate now).run World.exec world).1 = .ok () ↔
      config.Accepts world.state candidate now := by
  constructor
  · intro accepted
    exact (validate_accepts.mp (Prod.ext accepted rfl)).1
  · intro accepts
    rw [validate_accepts.mpr ⟨accepts, rfl⟩]

end

end PolicyConfig
end NetworkFinality
