import NetworkFinality.Model.Errors
import NetworkFinality.Model.World

/-!
# Policy validation

The checks of `TelecomPolicy.validate` in their order, with the denial each one
returns. Every attribute of the protected state is a read of its own, since
another thread may change the state between two of them.
-/

namespace NetworkFinality

open Python Semantics Procedure

/-- The settings of a policy. The two durations that the source holds as float seconds are
exact counts of microseconds here, which is what the floats come to below 2 ^ 33 seconds. -/
structure PolicyConfig where
  maxCandidateAge : Int
  maxEffectDurationSeconds : Int
  authorityTtl : Int
  requireAttestation : Bool
  allowedActTypes : Finset Str

namespace PolicyConfig

/-- `if entries and value not in entries`, with one read for each mention. -/
def denyUnlessListed (list : Allowlist) (value : Option Str) (denial : Denial) :
    Procedure system Denial Unit := do
  let entries ← ask (.allowed list)
  if entries ≠ ∅ then
    let entries ← ask (.allowed list)
    exitIf (∀ entry ∈ entries, value ≠ some entry) denial

/-- `self.config.require_attestation or state.require_attestation`. -/
def requiresAttestation {ε : Type} (config : PolicyConfig) : Procedure system ε Bool :=
  if config.requireAttestation then .done true else ask .requireAttestation

def validate (config : PolicyConfig) (candidate : NetworkCandidateAct) (now : DateTime) :
    Procedure system Denial Unit := do
  exitIf (now < candidate.createdAt) ⟨.malformedAct, "candidate created_at is in the future"⟩
  exitIf (candidate.expiresAt ≤ now) ⟨.staleAuthority, "candidate act is expired"⟩
  exitIf (config.maxCandidateAge < now.sub candidate.createdAt)
    ⟨.nonceFailure, "candidate act freshness window exceeded"⟩
  let policyEpoch ← ask (.epoch .policy)
  exitIf (candidate.policyState.policyEpoch ≠ policyEpoch)
    ⟨.policyEpochMismatch, "policy epoch is not current"⟩
  let authorityEpoch ← ask (.epoch .authority)
  exitIf (candidate.policyState.authorityEpoch ≠ authorityEpoch)
    ⟨.protectedStateMismatch, "authority epoch is not current"⟩
  let revocationEpoch ← ask (.epoch .revocation)
  exitIf (candidate.policyState.revocationEpoch ≠ revocationEpoch)
    ⟨.revocationStateMismatch, "revocation epoch is not current"⟩
  let sinkIds ← ask (.allowed .sinkIds)
  exitIf (candidate.finalitySink.sinkId.1 ∉ sinkIds)
    ⟨.sinkMismatch, "candidate targets an unauthorized finality sink"⟩
  exitIf (truthy candidate.networkContext.jurisdiction = false)
    ⟨.jurisdictionUnresolved, "jurisdiction is required by this demo policy"⟩
  denyUnlessListed .jurisdictions candidate.networkContext.jurisdiction
    ⟨.jurisdictionMismatch, "jurisdiction is outside the permitted set"⟩
  denyUnlessListed .purposes (some candidate.purpose.purposeId.1)
    ⟨.purposeMismatch, "purpose is outside the permitted set"⟩
  let required ← config.requiresAttestation
  exitIf (required = true ∧ truthy candidate.initiator.runtimeAttestationDigest = false)
    ⟨.attestationFailure, "runtime attestation is required"⟩
  exitIf (config.allowedActTypes ≠ ∅ ∧ candidate.actType.value ∉ config.allowedActTypes)
    ⟨.consequenceClassMismatch, "act type is not enabled by policy"⟩
  exitIf (∃ duration ∈ candidate.requestedEffect.durationSeconds,
      config.maxEffectDurationSeconds < duration)
    ⟨.scopeMismatch, "requested duration exceeds policy envelope"⟩
  exitIf (candidate.resourceScope.resourceIds.1 = [])
    ⟨.scopeMismatch, "resource scope is empty"⟩

end PolicyConfig
end NetworkFinality
