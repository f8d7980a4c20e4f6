import NetworkFinality.Safety.Agreement
import NetworkFinality.Spec.Acceptance

/-!
# Tightening a policy

A policy with its state that is at least as restrictive as another accepts no candidate
that the other denies, as long as tightening has not emptied the list of jurisdictions
or the list of purposes: an empty one restricts nothing. The list of sinks may be
emptied.
-/

namespace NetworkFinality

open Python Semantics Procedure

/-- The list restricts by its entries even when it has none. -/
def Allowlist.closed : Allowlist → Bool
  | .sinkIds => true
  | .jurisdictions | .purposes => false

/-- The first policy with its state is at least as restrictive as the second. -/
structure Tightens (config : PolicyConfig) (state : ProtectedNetworkState) (looser : PolicyConfig)
    (looserState : ProtectedNetworkState) : Prop where
  epochs : ∀ epoch, state.epoch epoch = looserState.epoch epoch
  allowed : ∀ list, state.allowed list ⊆ looserState.allowed list
  attestation : looser.requireAttestation = true ∨ looserState.requireAttestation = true →
    config.requireAttestation = true ∨ state.requireAttestation = true
  age : config.maxCandidateAge ≤ looser.maxCandidateAge
  duration : config.maxEffectDurationSeconds ≤ looser.maxEffectDurationSeconds
  actTypes : config.allowedActTypes = looser.allowedActTypes

/-- No list that restricts nothing when it is empty has been emptied. -/
def Unemptied (state looserState : ProtectedNetworkState) : Prop :=
  ∀ list : Allowlist, list.closed = false → state.allowed list = ∅ → looserState.allowed list = ∅

theorem Admits.widen {entries wider : Finset Str} {value : Option Str}
    (admits : Admits entries value) (sub : entries ⊆ wider) (unemptied : entries = ∅ → wider = ∅) :
    Admits wider value := by
  rcases admits with empty | ⟨entry, listed, same⟩
  · exact .inl (unemptied empty)
  · exact .inr ⟨entry, sub listed, same⟩

/-- What a policy accepts, a looser one accepts. -/
theorem PolicyConfig.Accepts.loosen {config looser : PolicyConfig}
    {state looserState : ProtectedNetworkState} {candidate : NetworkCandidateAct} {now : DateTime}
    (accepts : config.Accepts state candidate now)
    (tightens : Tightens config state looser looserState)
    (unemptied : Unemptied state looserState) : looser.Accepts looserState candidate now where
  created := accepts.created
  unexpired := accepts.unexpired
  age := accepts.age.trans tightens.age
  policyEpoch := accepts.policyEpoch.trans (tightens.epochs .policy)
  authorityEpoch := accepts.authorityEpoch.trans (tightens.epochs .authority)
  revocationEpoch := accepts.revocationEpoch.trans (tightens.epochs .revocation)
  sinkId := tightens.allowed .sinkIds accepts.sinkId
  jurisdictionPresent := accepts.jurisdictionPresent
  jurisdiction :=
    accepts.jurisdiction.widen (tightens.allowed .jurisdictions) (unemptied .jurisdictions rfl)
  purpose := accepts.purpose.widen (tightens.allowed .purposes) (unemptied .purposes rfl)
  attestation required := accepts.attestation (tightens.attestation required)
  actType := by
    rw [← tightens.actTypes]
    exact accepts.actType
  duration seconds requested := (accepts.duration seconds requested).trans tightens.duration

/-- Validation under a policy that is at least as restrictive accepts no more, unless it
has emptied the jurisdictions or the purposes. -/
theorem tightening_accepts_no_more [Hashlib] {config looser : PolicyConfig} {world looserWorld : World}
    {candidate : NetworkCandidateAct} {now : DateTime}
    (tightens : Tightens config world.state looser looserWorld.state)
    (unemptied : Unemptied world.state looserWorld.state)
    (accepted : ((config.validate candidate now).run World.exec world).1 = .ok ()) :
    ((looser.validate candidate now).run World.exec looserWorld).1 = .ok () := by
  rw [PolicyConfig.validate_ok] at accepted ⊢
  exact accepted.loosen tightens unemptied

/-! ### Removing an entry -/

/-- The state without one entry of one list. -/
def ProtectedNetworkState.without (state : ProtectedNetworkState) (entry : Str) :
    Allowlist → ProtectedNetworkState
  | .sinkIds => { state with allowedSinkIds := state.allowedSinkIds.erase entry }
  | .jurisdictions => { state with allowedJurisdictions := state.allowedJurisdictions.erase entry }
  | .purposes => { state with allowedPurposes := state.allowedPurposes.erase entry }

namespace ProtectedNetworkState

variable {state : ProtectedNetworkState} {entry : Str} {list : Allowlist}

theorem without_allowed (read : Allowlist) : (state.without entry list).allowed read =
    if read = list then (state.allowed list).erase entry else state.allowed read := by
  cases list <;> cases read <;> rfl

theorem without_tightens (config : PolicyConfig) :
    Tightens config (state.without entry list) config state where
  epochs epoch := by cases list <;> cases epoch <;> rfl
  allowed read := by
    rw [without_allowed]
    split
    · next same => exact same ▸ Finset.erase_subset ..
    · exact subset_rfl
  attestation required := by cases list <;> exact required
  age := le_rfl
  duration := le_rfl
  actTypes := rfl

/-- Removing an entry empties no list, unless it was the last entry. -/
theorem without_unemptied (remaining : list.closed = true ∨ state.allowed list ≠ {entry}) :
    Unemptied (state.without entry list) state := by
  intro read opened empty
  rw [without_allowed] at empty
  split at empty
  · next same =>
      subst same
      rcases (Finset.erase_eq_empty_iff ..).mp empty with empty | last
      · exact empty
      · simp [opened, last] at remaining
  · exact empty

end ProtectedNetworkState

/-- Removing an entry turns no denial into an acceptance, unless it was the last of the
jurisdictions or of the purposes. -/
theorem removal_accepts_no_more {config : PolicyConfig} {state : ProtectedNetworkState}
    {candidate : NetworkCandidateAct} {now : DateTime} {entry : Str} {list : Allowlist}
    (remaining : list.closed = true ∨ state.allowed list ≠ {entry})
    (accepts : config.Accepts (state.without entry list) candidate now) :
    config.Accepts state candidate now :=
  accepts.loosen (ProtectedNetworkState.without_tightens config)
    (ProtectedNetworkState.without_unemptied remaining)

/-! ### The reference candidate -/

/-- What a policy says of a candidate that has just been made. -/
theorem makeCandidate_accepts [Hashlib] {arguments : CandidateArguments} {now : DateTime}
    {candidate : NetworkCandidateAct} {config : PolicyConfig} {state : ProtectedNetworkState}
    (made : makeCandidate arguments now = .ok candidate) :
    config.Accepts state candidate now ↔
      0 ≤ config.maxCandidateAge ∧ arguments.policyEpoch = state.policyEpoch ∧
      arguments.authorityEpoch = state.authorityEpoch ∧
      arguments.revocationEpoch = state.revocationEpoch ∧
      arguments.sinkId.1 ∈ state.allowedSinkIds ∧ arguments.jurisdiction ≠ [] ∧
      Admits state.allowedJurisdictions (some arguments.jurisdiction) ∧
      Admits state.allowedPurposes (some arguments.purposeId.1) ∧
      (config.requireAttestation = true ∨ state.requireAttestation = true →
        truthy arguments.attestationDigest = true) ∧
      (config.allowedActTypes = ∅ ∨ arguments.actType.value ∈ config.allowedActTypes) ∧
      ∀ duration, arguments.durationSeconds = some duration →
        (duration : Int) ≤ config.maxEffectDurationSeconds := by
  obtain ⟨expiresAt, -, made⟩ := bind_eq_ok.mp made
  obtain ⟨digest, -, made⟩ := bind_eq_ok.mp made
  split at made
  · next later =>
      obtain rfl := pure_eq_ok.mp made
      have created : now.sub now = 0 := by simp [DateTime.sub]
      have past : ¬ now < now := by simp [DateTime.lt_iff]
      have unexpired : ¬ expiresAt ≤ now := by
        rw [DateTime.lt_iff] at later
        rw [DateTime.le_iff]
        omega
      constructor
      · intro accepts
        have age := accepts.age
        have present := accepts.jurisdictionPresent
        exact ⟨created ▸ age, accepts.policyEpoch, accepts.authorityEpoch, accepts.revocationEpoch,
          accepts.sinkId, by simpa [truthy] using present, accepts.jurisdiction, accepts.purpose,
          accepts.attestation, accepts.actType, accepts.duration⟩
      · rintro ⟨age, policyEpoch, authorityEpoch, revocationEpoch, sinkId, present, jurisdiction,
          purpose, attestation, actType, duration⟩
        exact ⟨past, unexpired, created ▸ age, policyEpoch, authorityEpoch, revocationEpoch, sinkId,
          by simpa [truthy] using present, jurisdiction, purpose, attestation, actType, duration⟩
  · cases made

namespace Reference

/-- The reference world with other jurisdictions and purposes. -/
def permitting (jurisdictions purposes : List Str) : World :=
  { start.world with
    state := { ProtectedNetworkState.standard with
      allowedJurisdictions := jurisdictions.toFinset
      allowedPurposes := purposes.toFinset } }

theorem permitting_accepts {jurisdictions purposes : List Str} :
    PolicyConfig.standard.Accepts (permitting jurisdictions purposes).state candidate clock ↔
      (jurisdictions = [] ∨ ("IN" : Str) ∈ jurisdictions) ∧
        (purposes = [] ∨ ("latency-optimization" : Str) ∈ purposes) := by
  rw [@makeCandidate_accepts .checksum _ _ _ _ _ candidate_made]
  have named : Str.ofString "IN" ≠ [] := by decide
  simp [permitting, PolicyConfig.standard, ProtectedNetworkState.standard, Admits, named]

/-- Removing the last jurisdiction turns a denial into an acceptance. -/
theorem emptied_jurisdictions_accept :
    Tightens .standard (permitting [] []).state .standard (permitting ["US"] []).state ∧
      ((PolicyConfig.standard.validate candidate clock).run (@World.exec .checksum)
        (permitting [] [])).1 = .ok () ∧
      ((PolicyConfig.standard.validate candidate clock).run (@World.exec .checksum)
        (permitting ["US"] [])).1 ≠ .ok () := by
  refine ⟨?_, ?_, ?_⟩
  · have same : (permitting [] []).state =
        (permitting ["US"] []).state.without "US" .jurisdictions := by
      simp [permitting, ProtectedNetworkState.without]
    rw [same]
    exact ProtectedNetworkState.without_tightens _
  · rw [@PolicyConfig.validate_ok .checksum]
    exact permitting_accepts.mpr ⟨.inl rfl, .inl rfl⟩
  · rw [Ne, @PolicyConfig.validate_ok .checksum, permitting_accepts]
    decide

/-- A policy with one purpose accepts the candidate, so the one with another purpose
besides does. -/
theorem tightening_accepts_reference :
    ((PolicyConfig.standard.validate candidate clock).run (@World.exec .checksum)
      (permitting ["IN"] ["latency-optimization", "congestion-optimization"])).1 = .ok () := by
  have accepts : PolicyConfig.standard.Accepts
      (permitting ["IN"] ["latency-optimization"]).state candidate clock :=
    permitting_accepts.mpr ⟨.inr (by simp), .inr (by simp)⟩
  apply @tightening_accepts_no_more .checksum .standard .standard
    (permitting ["IN"] ["latency-optimization"])
  · exact {
      epochs := fun epoch => by cases epoch <;> rfl
      allowed := by
        intro list
        cases list <;> simp [permitting, ProtectedNetworkState.allowed]
      attestation := id
      age := le_rfl
      duration := le_rfl
      actTypes := rfl }
  · intro list opened empty
    cases list <;> simp [permitting, ProtectedNetworkState.allowed, Allowlist.closed] at *
  · rw [@PolicyConfig.validate_ok .checksum]
    exact accepts

end Reference
end NetworkFinality
