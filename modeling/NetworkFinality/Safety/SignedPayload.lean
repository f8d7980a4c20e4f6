import NetworkFinality.Model.Engine
import NetworkFinality.Spec.Binding
import NetworkFinality.Spec.Issue

/-!
# What signatures and digests cover

The bytes of an authority's signature say everything about the authority but its
signature. The bytes of its digest say that too, and the bytes of a candidate say
everything about the candidate.
-/

namespace NetworkFinality

open Python Semantics Procedure

/-- Signed payloads, digested authorities and digested candidates have the same bytes
exactly when they are the same in every field, for payloads up to the signature. -/
theorem canonical_bytes_bind (authority authority' : NetworkFinalityAuthority)
    (candidate candidate' : NetworkCandidateAct) :
    (∀ bytes, unsignedAuthorityPayload authority = .ok bytes →
        (unsignedAuthorityPayload authority' = .ok bytes ↔
          authority.withSignature [] = authority'.withSignature [])) ∧
      (∀ bytes, canonicalJsonBytes authority.modelDump = .ok bytes →
        (canonicalJsonBytes authority'.modelDump = .ok bytes ↔ authority = authority')) ∧
      ∀ bytes, canonicalJsonBytes candidate.modelDump = .ok bytes →
        (canonicalJsonBytes candidate'.modelDump = .ok bytes ↔ candidate = candidate') := by
  have authorities : ∀ {left right : NetworkFinalityAuthority} {bytes : Bytes},
      canonicalJsonBytes left.modelDump = .ok bytes →
      (canonicalJsonBytes right.modelDump = .ok bytes ↔ left = right) := by
    intro left right bytes encoded
    constructor
    · intro encoded'
      exact NetworkFinalityAuthority.agree.mp
        (agree_of_canonicalJsonBytes left.plain right.plain encoded encoded')
    · rintro rfl
      exact encoded
  refine ⟨fun bytes signed => authorities signed, fun bytes => authorities, ?_⟩
  intro bytes encoded
  constructor
  · intro encoded'
    exact NetworkCandidateAct.agree.mp
      (agree_of_canonicalJsonBytes candidate.plain candidate'.plain encoded encoded')
  · rintro rfl
    exact encoded

/-- The bytes that the digest of an authority and that of its candidate cover, and the
payload of its signature. -/
theorem issued_bytes [Hashlib] {ped : ProtectedEnforcementDomain} {draws : IssueDraws}
    {candidate : NetworkCandidateAct} {before after : World} {decision : NetworkValidationDecision}
    {authority : NetworkFinalityAuthority}
    (ran : (ped.validateAndIssue draws candidate).run World.exec before =
      (.ok ⟨decision, some authority⟩, after)) :
    (∃ payload, unsignedAuthorityPayload authority = .ok payload ∧
        authority.issuer.signature = ped.signer.sign payload) ∧
      (∃ bytes, canonicalJsonBytes authority.modelDump = .ok bytes) ∧
      ∃ bytes, canonicalJsonBytes candidate.modelDump = .ok bytes := by
  obtain ⟨past, returned, -⟩ := (run_ok_iff World.exec).mp ran
  obtain ⟨now, evidence, activation, issued⟩ :=
    ProtectedEnforcementDomain.issued_of_returns returned
  obtain ⟨payload, signed, issuer⟩ := issued.prepared.issuer
  obtain ⟨bytes, encoded, -⟩ := bind_eq_ok.mp issued.prepared.authorityDigest
  obtain ⟨bytes', encoded', -⟩ := bind_eq_ok.mp issued.prepared.candidateDigest
  exact ⟨⟨payload, signed, congrArg (·.signature) issuer⟩, ⟨bytes, encoded⟩, ⟨bytes', encoded'⟩⟩

/-- The reference signature covers its authority under any signature, and no authority
that differs elsewhere; the digests cover the authority and the candidate themselves. -/
theorem canonical_bytes_bind_reference :
    (∃ payload, unsignedAuthorityPayload Reference.authority = .ok payload ∧
        Reference.authority.issuer.signature = Reference.sign payload ∧
        unsignedAuthorityPayload (Reference.authority.withSignature "another") = .ok payload) ∧
      (∃ bytes, canonicalJsonBytes Reference.authority.modelDump = .ok bytes) ∧
      ∃ bytes, canonicalJsonBytes Reference.candidate.modelDump = .ok bytes := by
  obtain ⟨decision, ran⟩ := Reference.issued_authority
  rw [Reference.issued] at ran
  obtain ⟨⟨payload, signed, signature⟩, digested, candidate⟩ := @issued_bytes .checksum _ _ _ _ _ _ _ ran
  refine ⟨⟨payload, signed, signature, ?_⟩, digested, candidate⟩
  exact ((canonical_bytes_bind Reference.authority (Reference.authority.withSignature "another")
    Reference.candidate Reference.candidate).1 payload signed).mpr
    (NetworkFinalityAuthority.withSignature_withSignature ..).symm

end NetworkFinality
