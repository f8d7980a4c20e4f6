import NetworkFinality.Python.Text

/-!
# Failure codes

Every denial names a reason, and `code` gives its symbolic identifier. The reasons
are those the policy, the enforcement domain and the sinks use. All of them are
listed in `FAILURE_CODES`, so its fail-closed default is never taken.
-/

namespace NetworkFinality

open Python

/-- Why a candidate or an authority is denied. -/
inductive FailureReason where
  | malformedAct
  | noFinalityAuthority
  | invalidAuthority
  | staleAuthority
  | authorityAlreadyUsed
  | replayDetected
  | nonceFailure
  | actMismatch
  | descriptorMismatch
  | scopeMismatch
  | purposeMismatch
  | consequenceClassMismatch
  | jurisdictionMismatch
  | policyEpochMismatch
  | revocationStateMismatch
  | protectedStateMismatch
  | networkStateMismatch
  | sinkMismatch
  | effectuationBoundaryMismatch
  | attestationFailure
  | jurisdictionUnresolved
  | evidenceMissing
  | activationMissing
deriving DecidableEq

def code : FailureReason → Str
  | .malformedAct => "EF-001"
  | .noFinalityAuthority => "EF-002"
  | .invalidAuthority => "EF-003"
  | .staleAuthority => "EF-004"
  | .authorityAlreadyUsed => "EF-005"
  | .replayDetected => "EF-006"
  | .nonceFailure => "EF-007"
  | .actMismatch => "EF-010"
  | .descriptorMismatch => "EF-011"
  | .scopeMismatch => "EF-012"
  | .purposeMismatch => "EF-013"
  | .consequenceClassMismatch => "EF-014"
  | .jurisdictionMismatch => "EF-021"
  | .policyEpochMismatch => "EF-030"
  | .revocationStateMismatch => "EF-031"
  | .protectedStateMismatch => "EF-032"
  | .networkStateMismatch => "EF-033"
  | .sinkMismatch => "EF-040"
  | .effectuationBoundaryMismatch => "EF-041"
  | .attestationFailure => "EF-050"
  | .jurisdictionUnresolved => "EF-063"
  | .evidenceMissing => "EF-080"
  | .activationMissing => "EF-080"

/-- A denial and the message it reports. -/
structure Denial where
  reason : FailureReason
  message : Str
deriving DecidableEq

def Denial.code (denial : Denial) : Str := NetworkFinality.code denial.reason

end NetworkFinality
