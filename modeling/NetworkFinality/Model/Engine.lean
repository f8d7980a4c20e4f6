import NetworkFinality.Model.System

/-!
# The reference system

`buildReferenceSystem` wires one domain, one sink and one network to a state and a
pair of stores. Only the contents of SQLite stores outlive a process, so building
the system again on the same directory is a restart. `makeCandidate` and
`makeEffect` have the source's default arguments, with a field of each argument's
validated type.
-/

namespace NetworkFinality

open Python Semantics

/-- The defaults of `ProtectedNetworkState`. -/
def ProtectedNetworkState.standard : ProtectedNetworkState where
  policyEpoch := 42
  authorityEpoch := 8
  revocationEpoch := 7
  topologyEpoch := 993
  configurationEpoch := 771
  protectedStateReference := "net-ped-state-7801"
  monotonicCounter := 184991
  allowedSinkIds := {Str.ofString "ran-finality-sink-04"}
  allowedJurisdictions := {Str.ofString "IN"}
  allowedPurposes := {Str.ofString "latency-optimization", Str.ofString "congestion-optimization"}
  requireAttestation := false

/-- The defaults of `PolicyConfig`. -/
def PolicyConfig.standard : PolicyConfig where
  maxCandidateAge := 5000000
  maxEffectDurationSeconds := 300
  authorityTtl := 4000000
  requireAttestation := false
  allowedActTypes := ∅

/-- Where the stores live. SQLite stores come with the contents of their files. -/
inductive Persistence where
  | memory
  | sqlite (evidence : SQLiteEvidenceStore) (activations : SQLiteActivationStore)

namespace Persistence

def evidenceStore : Persistence → EvidenceStore
  | .memory => .inMemory .empty
  | .sqlite evidence _ => .sqlite evidence.reopen

def activationStore : Persistence → ActivationStore
  | .memory => .inMemory .empty
  | .sqlite _ activations => .sqlite activations

end Persistence

/-- The keyword arguments of `build_reference_system`, with the signer of the chosen
backend. -/
structure SystemArguments where
  signer : Signer
  verifier : Verifier
  authorityTtl : Int := 4000000
  requireAttestation : Bool := false
  sinkId : Str := "ran-finality-sink-04"
  sinkType : SinkType := .ranControl

structure ReferenceSystem where
  world : World
  ped : ProtectedEnforcementDomain
  sink : NetworkFinalitySink

def buildReferenceSystem (arguments : SystemArguments) (persistence : Persistence)
    (clock : DateTime) : ReferenceSystem where
  world := {
    clock := clock
    state := { ProtectedNetworkState.standard with
      allowedSinkIds := {arguments.sinkId}
      requireAttestation := arguments.requireAttestation }
    nonceRegistry := ∅
    evidenceStore := persistence.evidenceStore
    activationStore := persistence.activationStore
    networks := fun _ => ⟨∅⟩ }
  ped := {
    pedId := "operator-ped-1"
    policy := { PolicyConfig.standard with
      authorityTtl := arguments.authorityTtl
      requireAttestation := arguments.requireAttestation }
    signer := arguments.signer }
  sink := {
    sinkId := arguments.sinkId
    sinkType := arguments.sinkType.value
    verifier := arguments.verifier
    network := 0 }

/-- The keyword arguments of `make_candidate`. -/
structure CandidateArguments where
  parameters : List (Str × Value) := []
  candidateActId : MinStr 16 := ⟨"net-39f8820b-reference", by decide⟩
  nonce : MinStr 16 := ⟨"C3929177AA801C55", by decide⟩
  sequence : Nat := 8821
  actType : ActType := .sliceResourceAllocation
  functionType : FunctionType := .aiRanController
  resourceType : ResourceType := .slice
  resourceIds : List Str := []
  subscriberScope : SubscriberScope := ⟨.tenant, some "tenant-A", fun _ => rfl⟩
  purposeId : MinStr 1 := ⟨"latency-optimization", by decide⟩
  effectType : MinStr 1 := ⟨"ALLOCATE_CAPACITY", by decide⟩
  durationSeconds : Option Nat := some 120
  jurisdiction : Str := "IN"
  sinkId : MinStr 1 := ⟨"ran-finality-sink-04", by decide⟩
  sinkType : SinkType := .ranControl
  attestationDigest : Option Str := none
  ttl : Int := 5000000
  policyEpoch : Nat := 42
  authorityEpoch : Nat := 8
  revocationEpoch : Nat := 7

/-- `parameters or {"additional_prb_percent": 12, "duration_seconds": ...}`. -/
def parametersOr (parameters : List (Str × Value)) (durationSeconds : Option Nat) :
    List (Str × Value) :=
  if parameters.isEmpty then
    [("additional_prb_percent", .int 12),
      ("duration_seconds", .optional (fun seconds => .int seconds) durationSeconds)]
  else parameters

/-- `Digest(value=digest_value(parameters))`. -/
def parametersDigest [Hashlib] (parameters : List (Str × Value)) : Except PyError Digest := do
  let value ← digestValue (.dict (parameters.map fun (name, value) => (.str name, value))) .sha256
  let value ← MinStr.validate 8 value
  return ⟨.sha256, value⟩

/-- `ids or default`, for lists of identifiers. -/
def resourceIdsOr (ids : List Str) (default : ResourceIds) : ResourceIds :=
  if present : 0 < ids.length then ⟨ids, present⟩ else default

def makeCandidate [Hashlib] (arguments : CandidateArguments) (now : DateTime) :
    Except PyError NetworkCandidateAct := do
  let expiresAt ← now.add arguments.ttl
  let digest ← parametersDigest (parametersOr arguments.parameters arguments.durationSeconds)
  if later : now < expiresAt then
    return {
      candidateActId := arguments.candidateActId
      actType := arguments.actType
      createdAt := now
      expiresAt := expiresAt
      initiator := {
        networkFunctionId := ⟨"ai-ran-controller-7", by decide⟩
        functionType := arguments.functionType
        agentId := some "ran-agent-7"
        modelId := some "traffic-optimizer-v5"
        runtimeAttestationDigest := arguments.attestationDigest }
      networkContext := {
        plmnId := some "00101"
        networkDomain := some "ran-domain-2"
        sliceId := some "slice-17"
        cellIds := ["cell-108"]
        edgeRegion := none
        jurisdiction := some arguments.jurisdiction }
      resourceScope := {
        resourceType := arguments.resourceType
        resourceIds := resourceIdsOr arguments.resourceIds ⟨["slice-17"], by decide⟩
        subscriberScope := arguments.subscriberScope }
      purpose := {
        purposeId := arguments.purposeId
        declaredPurpose := ⟨"Maintain bounded network objective", by decide⟩
        serviceIntentReference := none
        purposeEpoch := none }
      requestedEffect := {
        effectType := arguments.effectType
        parametersDigest := digest
        durationSeconds := arguments.durationSeconds
        reversibility := some .reversible }
      policyState := {
        policyEpoch := arguments.policyEpoch
        authorityEpoch := arguments.authorityEpoch
        revocationEpoch := arguments.revocationEpoch
        operatorPolicyProfile := some "ran-autonomy-v3"
        regulatoryProfile := none }
      freshness := {
        nonce := arguments.nonce
        sequence := some arguments.sequence
        sessionId := none }
      finalitySink := { sinkId := arguments.sinkId, sinkType := arguments.sinkType }
      expiryAfterCreation := later }
  else .error .validationError

/-- `make_effect`; an absent argument is taken from the candidate. -/
def makeEffect [Hashlib] (candidate : NetworkCandidateAct) (parameters : List (Str × Value))
    (resourceIds : List Str) (effectType : Str) (durationSeconds : Option Nat) :
    Except PyError ProposedEffect := do
  let parameters := parametersOr parameters candidate.requestedEffect.durationSeconds
  let digest ← parametersDigest parameters
  return {
    effectType := if effectType.isEmpty then candidate.requestedEffect.effectType else effectType
    resourceType := candidate.resourceScope.resourceType
    resourceIds := resourceIdsOr resourceIds candidate.resourceScope.resourceIds
    parameters := parameters
    parametersDigest := digest
    durationSeconds := durationSeconds <|> candidate.requestedEffect.durationSeconds }

/-! ### A reference run

One candidate is issued an authority and effectuated, with the checksum in place of
the hash functions and a keyed checksum in place of the signature. -/

namespace Reference

/-- A value that a computation returns. -/
def valueOf {ε α : Type} (outcome : Except ε α) (returned : outcome.toOption.isSome = true) : α :=
  outcome.toOption.get returned

/-- A pair with a known first component. -/
private theorem eq_pair {α β : Type} {pair : α × β} {first : α} (known : pair.1 = first) :
    pair = (first, pair.2) := by
  rw [← known]

private theorem clock_inRange : 63900000000000000 < maxMicros := by decide

def clock : DateTime := ⟨63900000000000000, clock_inRange⟩

/-- The defaults of `make_candidate`. -/
def candidateArguments : CandidateArguments := {}

/-- A checksum of the payload behind a secret. -/
def sign (payload : Bytes) : Str := b64url (@hashBytes .checksum (100 :: 101 :: payload) .sha256)

def signer : Signer := ⟨"ped-hmac-1", "HMAC-SHA256", sign⟩

def verifier : Verifier :=
  ⟨"ped-hmac-1", "HMAC-SHA256", fun payload signature => signature = sign payload⟩

theorem signer_verifiedBy : signer.VerifiedBy verifier where
  keyId := rfl
  algorithm := rfl
  accepts payload := by simp [verifier, signer]

def arguments : SystemArguments := { signer := signer, verifier := verifier }

def start : ReferenceSystem := buildReferenceSystem arguments .memory clock

def candidate : NetworkCandidateAct :=
  valueOf (@makeCandidate .checksum {} clock) (by decide +kernel)

def draws : IssueDraws where
  decisionHex := "000000000001"
  evidenceHex := "000000000002"
  authorityHex := "000000000003"
  token := List.replicate 32 7

/-- The state that issuing leaves, after its result. -/
def issued : Except Exit PEDResult × World :=
  (@ProtectedEnforcementDomain.validateAndIssue .checksum start.ped draws candidate).run
    (@World.exec .checksum) start.world

def issuedWorld : World := issued.2

/-- The authority a call has returned. -/
def authorityOf (outcome : Except Exit PEDResult) : Option NetworkFinalityAuthority :=
  outcome.toOption.bind (·.authority)

def authority : NetworkFinalityAuthority := (authorityOf issued.1).get (by decide +kernel)

/-- A run that returns an authority returns a decision with it. -/
theorem ran_authority {ran : Except Exit PEDResult × World} {authority : NetworkFinalityAuthority}
    (returned : authorityOf ran.1 = some authority) :
    ∃ decision, ran = (.ok ⟨decision, some authority⟩, ran.2) := by
  cases outcome : ran.1 with
  | error reason =>
      rw [outcome] at returned
      cases returned
  | ok result =>
      rw [outcome] at returned
      obtain ⟨decision, issuedAuthority⟩ := result
      obtain rfl : issuedAuthority = some authority := returned
      exact ⟨decision, eq_pair outcome⟩

/-- The candidate is issued the authority. -/
theorem issued_authority : ∃ decision, issued = (.ok ⟨decision, some authority⟩, issuedWorld) := by
  rw [issuedWorld]
  exact ran_authority (Option.some_get _).symm

def effect : ProposedEffect :=
  valueOf (@makeEffect .checksum candidate [] [] [] none) (by decide +kernel)

def request : SinkRequest where
  requestId := "request-1"
  candidate := candidate
  authority := some authority
  proposedEffect := effect

/-- The state that effectuating leaves, after its response. -/
def effectuated : Except Exit SinkVerifyResponse × World :=
  (@NetworkFinalitySink.verifyAndEffectuate .checksum start.sink request (some "0000000001")).run
    (@World.exec .checksum) issuedWorld

def finalWorld : World := effectuated.2

/-- The request is allowed, its effect is recorded and its authority is used. -/
theorem effectuated_allow :
    effectuated.1.toOption.map (·.decision) = some .allow ∧
      ((finalWorld.networks 0).effects.get "net-effect-0000000001").map (·.authorityId) =
        some authority.authorityId ∧
      (finalWorld.activationStore.get draws.authorityId).toOption.join.isSome = true ∧
      (finalWorld.activationStore.isUsed draws.authorityId).toOption = some true := by
  decide +kernel

/-- The request returns its response. -/
theorem effectuated_response : ∃ response, effectuated = (.ok response, finalWorld) := by
  have allowed := effectuated_allow.1
  cases outcome : effectuated.1 with
  | error reason =>
      rw [outcome] at allowed
      cases allowed
  | ok response =>
      rw [finalWorld]
      exact ⟨response, eq_pair outcome⟩

/-- The two calls of the run. -/
def turns : List (Turn Call World) :=
  [⟨Call.validateAndIssue start.ped draws candidate, start.world⟩,
    ⟨Call.verifyAndEffectuate start.sink request (some "0000000001"), issuedWorld⟩]

theorem history : History (@Call.program .checksum) (@World.exec .checksum) World.Environment
    start.world turns finalWorld := by
  have issuing : History (@Call.program .checksum) (@World.exec .checksum) World.Environment
      start.world [⟨.validateAndIssue start.ped draws candidate, start.world⟩] issuedWorld := by
    apply @history_validateAndIssue .checksum _ _ _ _ [] .start
    rw [issuedWorld, issued]
  apply @history_verifyAndEffectuate .checksum _ _ _ _ _ issuing
  rw [finalWorld, effectuated]

/-- The run as a pool of two finished calls. -/
def pool : Pool (@Call.program .checksum) World :=
  Turn.pool _ (@World.exec .checksum) turns finalWorld

end Reference
end NetworkFinality
