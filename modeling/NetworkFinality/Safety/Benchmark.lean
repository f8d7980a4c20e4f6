import NetworkFinality.Model.Benchmark
import NetworkFinality.Python.JsonText
import NetworkFinality.Safety.Agreement
import NetworkFinality.Safety.Issuance
import NetworkFinality.Spec.Candidates

/-!
# When the benchmark ends

Each iteration presents a candidate of its own to a system that has served the ones before.
-/

namespace NetworkFinality

open Python Semantics Procedure

/-! ### Padded numbers -/

theorem zeroPadded_ok {width value : Nat} {text : Str} (padded : zeroPadded width value = .ok text) :
    ∃ zeros, text = (List.replicate zeros '0' ++ Nat.toDigits 10 value).map .scalar := by
  obtain ⟨digits, written, rest⟩ := bind_eq_ok.mp padded
  obtain rfl := pure_eq_ok.mp rest
  have spelled : (Int.repr (value : Int)).toList = Nat.toDigits 10 value := Nat.toList_repr
  obtain rfl := intText_ok written
  exact ⟨_, by rw [List.map_append, List.map_replicate, spelled]⟩

/-- Different numbers have different padded texts. -/
theorem zeroPadded_injective {width value other : Nat} {text : Str}
    (padded : zeroPadded width value = .ok text) (padded' : zeroPadded width other = .ok text) :
    value = other := by
  obtain ⟨zeros, spelled⟩ := zeroPadded_ok padded
  obtain ⟨zeros', spelled'⟩ := zeroPadded_ok padded'
  have same := List.map_injective_iff.mpr (fun _ _ => CodePoint.scalar.inj)
    (spelled.symm.trans spelled')
  have read := congrArg (fun chars => Nat.ofDigitChars 10 chars 0) same
  simpa [Nat.ofDigitChars_append, Nat.ofDigitChars_replicate_zero] using read

theorem zeroPadded_encodable {width value : Nat} {text : Str}
    (padded : zeroPadded width value = .ok text) : text.Encodable := by
  obtain ⟨zeros, rfl⟩ := zeroPadded_ok padded
  intro x member
  obtain ⟨char, -, rfl⟩ := List.mem_map.mp member
  exact ⟨char, rfl⟩

/-- A number that has a text is padded to at least the width. -/
theorem exists_zeroPadded {width value : Nat} (digits : (Value.int value).Encodable) :
    ∃ text, zeroPadded width value = .ok text ∧ width ≤ text.length := by
  obtain ⟨text, written⟩ : ∃ text, intText value = .ok text := by
    rcases digits with _ | _ | small
    exact exists_intText.mpr small
  refine ⟨_, bind_eq_ok.mpr ⟨text, written, rfl⟩, ?_⟩
  rw [List.length_append, List.length_replicate]
  omega

/-! ### One iteration -/

section

variable [Hashlib]

/-- The sink allows what the candidate of an authority asked for exactly until it expires. -/
theorem allows_until_expiry {ped : ProtectedEnforcementDomain} {draws : IssueDraws}
    {candidate : NetworkCandidateAct} {before issued : World} {decision : NetworkValidationDecision}
    {authority : NetworkFinalityAuthority}
    (ran : (ped.validateAndIssue draws candidate).run World.exec before =
      (.ok ⟨decision, some authority⟩, issued)) {sink : NetworkFinalitySink}
    (verified : ped.signer.VerifiedBy sink.verifier)
    (sinkId : sink.sinkId = candidate.finalitySink.sinkId)
    (sinkType : sink.sinkType = candidate.finalitySink.sinkType.value) {request : SinkRequest}
    (given : request.candidate = candidate) (presented : request.authority = some authority)
    (conforms : Conforms candidate request.proposedEffect) (hex : Str) (now : DateTime) :
    (∃ response after, (sink.verifyAndEffectuate request (some hex)).run World.exec
        { issued with clock := now } = (.ok response, after)) ↔
      now < authority.lifetime.expiresAt := by
  constructor
  · rintro ⟨response, after, allowed⟩
    obtain ⟨authority', evidence, activation, _, permitted, -⟩ :=
      NetworkFinalitySink.verifyAndEffectuate_ok.mp allowed
    obtain rfl := Option.some.inj (permitted.presented.symm.trans presented)
    have unexpired := permitted.unexpired
    rw [DateTime.le_iff] at unexpired
    rw [DateTime.lt_iff]
    exact Nat.not_le.mp unexpired
  · intro unexpired
    obtain ⟨past, returned, answered⟩ := (run_ok_iff World.exec).mp ran
    obtain ⟨_, evidence, activation, facts⟩ :=
      ProtectedEnforcementDomain.issued_of_returns returned
    have facts := facts.issuedIn answered
    obtain ⟨standing, unused⟩ := standing_of_issued returned answered facts
    have later : Standing evidence authority activation { issued with clock := now } :=
      ⟨standing.evidence, standing.activation, standing.state.reference, standing.state.epochs⟩
    obtain ⟨stored, read, permitted⟩ := permitted_of_standing facts later unused unexpired
      verified sinkId sinkType given presented conforms
    exact ⟨_, _, NetworkFinalitySink.verifyAndEffectuate_ok.mpr
      ⟨authority, stored, read, hex, permitted, rfl, rfl, rfl⟩⟩

omit [Hashlib] in
theorem stop_bind_eq_ok {α β : Type} {first : Except BenchmarkError α}
    {rest : α → Except BenchmarkError β} {result : β} :
    (first >>= rest) = .ok result ↔ ∃ value, first = .ok value ∧ rest value = .ok result := by
  cases first <;> simp [Bind.bind, Except.bind]

omit [Hashlib] in
theorem orStop_eq_ok {α : Type} {outcome : Except PyError α} {value : α} :
    orStop outcome = .ok value ↔ outcome = .ok value := by
  cases outcome <;> simp [orStop, Except.mapError]

omit [Hashlib] in
theorem permittedOrStop_ok {outcome : Except Exit SinkVerifyResponse × World} {after : World} :
    permittedOrStop outcome = .ok after ↔
      ∃ response, outcome = (.ok response, after) ∧ response.effectuationPermitted = true := by
  obtain ⟨(error | denied) | response, world⟩ := outcome
  · simp [permittedOrStop]
  · simp [permittedOrStop]
  · by_cases permitted : response.effectuationPermitted = true <;>
      simp [permittedOrStop, permitted]

/-- An iteration ends with its effect applied when its candidate is issued an authority and
the sink allows it. -/
theorem benchmarkIteration_ok {system : ReferenceSystem} {index : Nat} {iteration : Iteration}
    {world after : World} :
    benchmarkIteration system index iteration world = .ok after ↔
      ∃ candidate effect decision authority issued text response,
        benchmarkCandidate index iteration.created = .ok candidate ∧
        makeEffect candidate [] [] [] none = .ok effect ∧
        (system.ped.validateAndIssue iteration.draws candidate).run World.exec
          { world with clock := iteration.validated } =
            (.ok ⟨decision, some authority⟩, issued) ∧
        intText index = .ok text ∧
        (system.sink.verifyAndEffectuate ⟨("bench-" : Str) ++ text, candidate, some authority,
          effect⟩ (some iteration.effectHex)).run World.exec
            { issued with clock := iteration.verified } = (.ok response, after) := by
  simp only [benchmarkIteration, stop_bind_eq_ok, orStop_eq_ok]
  constructor
  · rintro ⟨candidate, made, effect, proposed, ending⟩
    rcases issuing : (system.ped.validateAndIssue iteration.draws candidate).run World.exec
      { world with clock := iteration.validated } with ⟨reason | ⟨decision, _ | authority⟩, issued⟩
    · rw [issuing] at ending
      cases ending
    · rw [issuing] at ending
      cases ending
    · rw [issuing] at ending
      obtain ⟨text, written, ending⟩ := stop_bind_eq_ok.mp ending
      obtain ⟨response, allowed, -⟩ := permittedOrStop_ok.mp ending
      exact ⟨candidate, effect, decision, authority, issued, text, response, made, proposed,
        issuing, orStop_eq_ok.mp written, allowed⟩
  · rintro ⟨candidate, effect, decision, authority, issued, text, response, made, proposed,
      issuing, written, allowed⟩
    refine ⟨candidate, made, effect, proposed, ?_⟩
    rw [issuing]
    refine stop_bind_eq_ok.mpr ⟨text, orStop_eq_ok.mpr written, ?_⟩
    refine permittedOrStop_ok.mpr ⟨response, allowed, ?_⟩
    obtain ⟨_, _, _, _, -, -, rfl, -⟩ := NetworkFinalitySink.verifyAndEffectuate_ok.mp allowed
    rfl

/-! ### Candidates -/

/-- What the candidate of an iteration is made of. -/
theorem benchmarkCandidate_ok {index : Nat} {created : DateTime} {candidate : NetworkCandidateAct} :
    benchmarkCandidate index created = .ok candidate ↔
      ∃ actIndex nonceIndex candidateActId nonce, zeroPadded 8 index = .ok actIndex ∧
        zeroPadded 10 index = .ok nonceIndex ∧
        MinStr.validate 16 (("bench-candidate-" : Str) ++ actIndex) = .ok candidateActId ∧
        MinStr.validate 16 (("BENCHNONCE" : Str) ++ nonceIndex) = .ok nonce ∧
        makeCandidate (benchmarkArguments candidateActId nonce index) created = .ok candidate := by
  simp only [benchmarkCandidate, bind_eq_ok]
  grind

omit [Hashlib] in
/-- The arguments of an iteration's candidate have canonical bytes. -/
theorem benchmarkArguments_encodable {index : Nat} {actIndex nonceIndex : Str}
    {candidateActId nonce : MinStr 16} (digits : (Value.int index).Encodable)
    (padded : zeroPadded 8 index = .ok actIndex) (padded' : zeroPadded 10 index = .ok nonceIndex)
    (valid : MinStr.validate 16 (("bench-candidate-" : Str) ++ actIndex) = .ok candidateActId)
    (valid' : MinStr.validate 16 (("BENCHNONCE" : Str) ++ nonceIndex) = .ok nonce) :
    (benchmarkArguments candidateActId nonce index).Encodable := by
  have small (number : Nat) (small : number < 1000) : (Value.int number).Encodable :=
    Value.encodable_of_small (small.trans (by decide))
  have constant (text : String) : (Str.ofString text).Encodable := Str.encodable_ofString _
  have actText : Str.Encodable candidateActId := by
    rw [MinStr.validate_ok valid]
    exact Str.encodable_append.mpr ⟨constant _, zeroPadded_encodable padded⟩
  have nonceText : Str.Encodable nonce := by
    rw [MinStr.validate_ok valid']
    exact Str.encodable_append.mpr ⟨constant _, zeroPadded_encodable padded'⟩
  refine ⟨?_, by rintro _ ⟨⟩, ?_, by rintro _ ⟨⟩, ?_, ?_⟩
  · simp only [List.forall_mem_cons]
    exact ⟨actText, nonceText, constant _, constant _, constant _, constant _, by rintro _ ⟨⟩⟩
  · rintro _ ⟨⟩
    exact constant _
  · simp only [List.forall_mem_cons]
    exact ⟨digits, small 42 (by decide), small 8 (by decide), small 7 (by decide),
      by rintro _ ⟨⟩⟩
  · rintro _ ⟨⟩
    exact small 120 (by decide)

/-- A candidate is made exactly where its expiry is a date. -/
theorem benchmarkCandidate_isOk_iff {index : Nat} {created : DateTime}
    (digits : (Value.int index).Encodable) :
    (∃ candidate, benchmarkCandidate index created = .ok candidate) ↔
      created.micros + 5000000 < maxMicros := by
  have arguments (candidateActId nonce : MinStr 16) : (∃ candidate, makeCandidate
      (benchmarkArguments candidateActId nonce index) created = .ok candidate) ↔
        created.micros + 5000000 < maxMicros := by
    have dated := @makeCandidate_isOk_iff _ (benchmarkArguments candidateActId nonce index) created
    exact (dated exists_standardDigest (show (0 : Int) < 5000000 by decide)).trans Int.ofNat_lt
  constructor
  · rintro ⟨candidate, made⟩
    obtain ⟨_, _, candidateActId, nonce, -, -, -, -, made⟩ := benchmarkCandidate_ok.mp made
    exact (arguments _ _).mp ⟨candidate, made⟩
  · intro dated
    obtain ⟨actIndex, padded, long⟩ : ∃ text, zeroPadded 8 index = .ok text ∧ 8 ≤ text.length :=
      exists_zeroPadded digits
    obtain ⟨nonceIndex, padded', long'⟩ :
        ∃ text, zeroPadded 10 index = .ok text ∧ 10 ≤ text.length := exists_zeroPadded digits
    have textual {label : String} {width : Nat} {text : Str}
        (padded : zeroPadded width index = .ok text) : (Str.ofString label ++ text).Encodable :=
      Str.encodable_append.mpr ⟨Str.encodable_ofString _, zeroPadded_encodable padded⟩
    have actLong : 16 ≤ (("bench-candidate-" : Str) ++ actIndex).length := by
      rw [List.length_append]
      exact Nat.le_add_right_of_le (by decide)
    have nonceLong : 16 ≤ (("BENCHNONCE" : Str) ++ nonceIndex).length := by
      rw [List.length_append, show (("BENCHNONCE" : Str)).length = 10 by decide]
      omega
    obtain ⟨candidate, made⟩ :=
      (arguments ⟨_, actLong, textual padded⟩ ⟨_, nonceLong, textual padded'⟩).mpr dated
    exact ⟨candidate, benchmarkCandidate_ok.mpr ⟨actIndex, nonceIndex, _, _, padded, padded',
      dif_pos ⟨actLong, textual padded⟩, dif_pos ⟨nonceLong, textual padded'⟩, made⟩⟩

end

/-! ### What an iteration finds -/

/-- The clock readings of an iteration keep to the deadlines. -/
structure Iteration.Timely (iteration : Iteration) : Prop where
  dated : iteration.created.micros + 5000000 < maxMicros
  validated : iteration.created ≤ iteration.validated
  unexpired : iteration.validated.micros < iteration.created.micros + 5000000
  verified : iteration.verified.micros < iteration.created.micros + 5000000
  lives : iteration.verified.micros < iteration.validated.micros + 4000000

/-- What an iteration draws has a UTF-8 form, as hexadecimal digits have. -/
structure Iteration.Drawn (iteration : Iteration) : Prop where
  decision : iteration.draws.decisionId.Encodable
  evidence : iteration.draws.evidenceId.Encodable
  authority : iteration.draws.authorityId.Encodable

/-- The identifier of the iteration's effect. -/
def Iteration.effectId (iteration : Iteration) : Str := ("net-effect-" : Str) ++ iteration.effectHex

/-- What the network records of the iteration, whose index is padded to the text. -/
def Iteration.effect (iteration : Iteration) (actIndex : Str) : NetworkEffect where
  candidateActId := ("bench-candidate-" : Str) ++ actIndex
  authorityId := iteration.draws.authorityId
  effectType := "ALLOCATE_CAPACITY"
  resourceType := "SLICE"
  resourceIds := ["slice-17"]
  parameters := [("additional_prb_percent", .int 12), ("duration_seconds", .int 120)]
  durationSeconds := some 120

/-- No iteration after this one draws its effect identifier. -/
structure DrawnLast (iterations : List Iteration) (place : Nat) (iteration : Iteration) :
    Prop where
  drawn : iterations[place]? = some iteration
  last : ∀ later other, place < later → iterations[later]? = some other →
    other.effectId ≠ iteration.effectId

/-- The world after some iterations, which have used these authorities. -/
structure Ready (index : Nat) (authorities : List Str) (world : World) : Prop where
  state : world.state =
    { ProtectedNetworkState.standard with monotonicCounter := ((184991 + index : Nat) : Int) }
  nonces : ∀ nonce ∈ world.nonceRegistry, ∃ earlier < index, ∃ text,
    zeroPadded 10 earlier = .ok text ∧ nonce = ("BENCHNONCE" : Str) ++ text
  memory : ∃ store, world.evidenceStore = .inMemory store
  tail : world.evidenceStore.tail.Encodable
  activations : ∀ authorityId,
    world.activationStore.table authorityId = none ↔ authorityId ∉ authorities

/-- The signer of the benchmark writes text that its verifier accepts. -/
structure Signs (signer : Signer) (verifier : Verifier) : Prop extends
    signer.VerifiedBy verifier where
  written : ∀ payload, (signer.sign payload).Encodable
  keyText : signer.keyId.Encodable
  algorithmText : signer.algorithm.Encodable

section

variable [Hashlib] {signer : Signer} {verifier : Verifier} {clock : DateTime} {index : Nat}
  {authorities : List Str} {world : World} {iteration : Iteration}
  {candidate : NetworkCandidateAct}

omit [Hashlib] in
/-- The benchmark starts with nothing used. -/
theorem ready_start : Ready 0 []
    (benchmarkSystem signer verifier clock).world where
  state := rfl
  nonces := by rintro nonce ⟨⟩
  memory := ⟨_, rfl⟩
  tail := Str.encodable_ofString _
  activations authorityId := by simp [buildReferenceSystem, Persistence.activationStore,
    ActivationStore.table, InMemoryActivationStore.table, InMemoryActivationStore.empty]

omit [Hashlib] in
/-- The policy of the reference system admits what the iterations ask for. -/
theorem benchmark_admitted (ready : Ready index authorities world)
    (candidateActId nonce : MinStr 16) :
    (benchmarkArguments candidateActId nonce index).Admitted PolicyConfig.standard world.state := by
  rw [ready.state]
  exact {
    policyEpoch := rfl
    authorityEpoch := rfl
    revocationEpoch := rfl
    sinkId := Finset.mem_singleton_self _
    jurisdictionPresent := rfl
    jurisdiction := .inr ⟨_, Finset.mem_singleton_self _, rfl⟩
    purpose := .inr ⟨_, Finset.mem_insert_self _ _, rfl⟩
    attestation := by rintro (required | required) <;> cases required
    actType := .inl rfl
    duration := by
      intro seconds requested
      obtain rfl := Option.some.inj requested
      exact (by decide : ((120 : Nat) : Int) ≤ 300) }

variable (ready : Ready index authorities world)
  (made : benchmarkCandidate index iteration.created = .ok candidate)

include ready made

/-- The nonce of an iteration is new. -/
theorem benchmark_nonce : candidate.freshness.nonce.1 ∉ world.nonceRegistry ∧
    ∃ text, zeroPadded 10 index = .ok text ∧
      candidate.freshness.nonce.1 = ("BENCHNONCE" : Str) ++ text := by
  obtain ⟨_, nonceIndex, _, nonce, -, padded, -, valid, made⟩ := benchmarkCandidate_ok.mp made
  have same : candidate.freshness.nonce = nonce := (makeCandidate_fields made).1
  have spelled : candidate.freshness.nonce.1 = ("BENCHNONCE" : Str) ++ nonceIndex := by
    rw [same, ← MinStr.validate_ok valid]
  refine ⟨fun seen => ?_, nonceIndex, padded, spelled⟩
  obtain ⟨earlier, before, text, padded', spelled'⟩ := ready.nonces _ seen
  obtain rfl := List.append_cancel_left (spelled.symm.trans spelled')
  exact absurd (zeroPadded_injective padded' padded) before.ne

/-- A candidate is granted while it is neither early nor stale. -/
theorem benchmark_grants : (benchmarkSystem signer verifier clock).ped.Grants candidate
      { world with clock := iteration.validated } ↔
    iteration.created ≤ iteration.validated ∧
      iteration.validated.micros < iteration.created.micros + 5000000 := by
  obtain ⟨fresh, -⟩ := benchmark_nonce ready made
  obtain ⟨_, _, candidateActId, nonce, -, -, -, -, made⟩ := benchmarkCandidate_ok.mp made
  have accepts : PolicyConfig.standard.Accepts world.state candidate iteration.validated ↔ _ :=
    makeCandidate_accepts_until made (benchmark_admitted ready candidateActId nonce)
  have validates := @PolicyConfig.validate_ok _ PolicyConfig.standard candidate
    iteration.validated { world with clock := iteration.validated }
  constructor
  · rintro ⟨accepted, -⟩
    obtain ⟨early, late, -⟩ := accepts.mp (validates.mp accepted)
    have late : (iteration.validated.micros : Int) < iteration.created.micros + 5000000 := late
    exact ⟨early, by omega⟩
  · rintro ⟨early, late⟩
    refine ⟨validates.mpr (accepts.mpr ⟨early, ?_, ?_⟩), fresh⟩
    · change (iteration.validated.micros : Int) < iteration.created.micros + 5000000
      omega
    · change (iteration.validated.micros : Int) ≤ iteration.created.micros + 5000000
      omega

omit [Hashlib] made in
/-- The protected state of the benchmark has valid snapshots. -/
theorem benchmark_snapshots : world.state.Snapshots := by
  rw [ready.state]
  exact ⟨(by decide : (0 : Int) ≤ 993), (by decide : (0 : Int) ≤ 771),
    ⟨(by decide : 1 ≤ ProtectedNetworkState.standard.protectedStateReference.length),
      Str.encodable_ofString _⟩, Int.natCast_nonneg _⟩

omit ready in
/-- The candidate of an iteration has canonical bytes. -/
theorem benchmark_act (digits : (Value.int ((184991 + index + 1 : Nat) : Int)).Encodable) :
    candidate.modelDump.Encodable := by
  obtain ⟨_, _, _, _, padded, padded', valid, valid', made⟩ := benchmarkCandidate_ok.mp made
  exact makeCandidate_encodable made (benchmarkArguments_encodable
    (Value.encodable_of_le (by omega) digits) padded padded' valid valid')

variable (digits : (Value.int ((184991 + index + 1 : Nat) : Int)).Encodable)
  (drawn : iteration.Drawn)

include digits drawn

/-- Evidence of an iteration is recorded. -/
theorem benchmark_recordable :
    Recordable { world with clock := iteration.validated } iteration.draws candidate := by
  have actId : Str.Encodable candidate.candidateActId := by
    have act := benchmark_act made digits
    simp only [NetworkCandidateAct.modelDump, Value.encodable_field, Value.fields_cons,
      Value.fields_nil, Value.encodable_str] at act
    exact act.2.2.1
  refine ⟨?_, ?_, ?_⟩
  · simp only [List.forall_mem_cons, ready.state]
    exact ⟨drawn.evidence, actId, drawn.decision, Str.encodable_ofString _, ready.tail,
      by rintro _ ⟨⟩⟩
  · simp only [ready.state]
    exact_mod_cast digits
  · rintro rows file
    obtain ⟨store, memory⟩ := ready.memory
    cases memory.symm.trans file

variable (signs : Signs signer verifier) (clock : DateTime)

include signs

/-- The authority of an iteration has canonical bytes. -/
theorem benchmark_preparable :
    Preparable { world with clock := iteration.validated }
      (benchmarkSystem signer verifier clock).ped iteration.draws candidate where
  act := benchmark_act made digits
  expiry := by
    have lives : (benchmarkSystem signer verifier clock).ped.policy.authorityTtl = 4000000 := rfl
    have dated := candidate.expiresAt.inRange
    have read := iteration.validated.inRange
    rw [lives, DateTime.sub]
    refine ⟨_, dif_pos ⟨?_, ?_⟩⟩ <;> dsimp only <;> omega
  epochs epoch := by
    have standard : world.state.epoch epoch = ProtectedNetworkState.standard.epoch epoch := by
      rw [ready.state]
      cases epoch <;> rfl
    rw [standard]
    cases epoch
    all_goals exact ⟨by decide, Value.encodable_of_small (by decide)⟩
  names := by
    simp only [List.forall_mem_cons]
    exact ⟨drawn.authority, Str.encodable_ofString _, signs.keyText, signs.algorithmText,
      by rintro _ ⟨⟩⟩

/-- A granted iteration is issued an authority exactly when its identifier is new. -/
theorem benchmark_issues (early : iteration.created ≤ iteration.validated)
    (late : iteration.validated.micros < iteration.created.micros + 5000000) :
    (∃ decision authority issued,
      ((benchmarkSystem signer verifier clock).ped.validateAndIssue iteration.draws candidate).run
        World.exec { world with clock := iteration.validated } =
          (.ok ⟨decision, some authority⟩, issued)) ↔
      iteration.draws.authorityId ∉ authorities := by
  have grants : (benchmarkSystem signer verifier clock).ped.Grants candidate
      { world with clock := iteration.validated } := (benchmark_grants ready made).mpr ⟨early, late⟩
  rw [← ready.activations]
  constructor
  · rintro ⟨decision, authority, issued, ran⟩
    obtain ⟨-, fields, evidence, store, activation, reads, activations, -, prepared, put, -⟩ :=
      ProtectedEnforcementDomain.issued_run ran
    have free := (ActivationStore.table_put put).1
    rwa [prepared.activationId, prepared.authorityId] at free
  · intro free
    have snapshots : world.state.Snapshots := benchmark_snapshots ready
    have issuable : Issuable { world with clock := iteration.validated }
        (benchmarkSystem signer verifier clock).ped iteration.draws candidate :=
      ⟨benchmark_preparable ready made digits drawn signs clock, free⟩
    have concludes : Concludes ((benchmarkSystem signer verifier clock).ped.validateAndIssue
        iteration.draws candidate) { world with clock := iteration.validated } :=
      (ProtectedEnforcementDomain.validateAndIssue_concludes signs.written).mpr
        ⟨snapshots, benchmark_recordable ready made digits drawn, fun _ => issuable⟩
    obtain ⟨⟨decision, authority⟩, issued, ran⟩ := concludes
    obtain ⟨authority, rfl⟩ := ProtectedEnforcementDomain.authority_of_grants ran grants
    exact ⟨decision, authority, issued, ran⟩

end

/-! ### What an iteration leaves -/

section

variable [Hashlib] {index : Nat} {authorities : List Str} {world : World}

omit [Hashlib] in
theorem Ready.clock (ready : Ready index authorities world) (now : DateTime) :
    Ready index authorities { world with clock := now } := by
  obtain ⟨state, nonces, memory, tail, activations⟩ := ready
  exact ⟨state, nonces, memory, tail, activations⟩

/-- An issued authority uses up its identifier and the nonce of its iteration. -/
theorem Ready.issued {ped : ProtectedEnforcementDomain} {draws : IssueDraws}
    {candidate : NetworkCandidateAct} {issued : World} {decision : NetworkValidationDecision}
    {authority : NetworkFinalityAuthority} (ready : Ready index authorities world)
    (nonce : ∃ text, zeroPadded 10 index = .ok text ∧
      candidate.freshness.nonce.1 = ("BENCHNONCE" : Str) ++ text)
    (ran : (ped.validateAndIssue draws candidate).run World.exec world =
      (.ok ⟨decision, some authority⟩, issued)) :
    Ready (index + 1) (draws.authorityId :: authorities) issued := by
  obtain ⟨-, fields, evidence, store, activation, reads, activations, committed, prepared, put,
    rfl⟩ := ProtectedEnforcementDomain.issued_run ran
  have recorded := EvidenceStore.commit_ok committed
  constructor
  · change world.state.advanceCounter.2 = _
    rw [ready.state, ProtectedNetworkState.advanceCounter]
    dsimp only
    congr 1
  · intro seen member
    rcases Finset.mem_insert.mp member with rfl | earlier
    · obtain ⟨text, padded, spelled⟩ := nonce
      exact ⟨index, Nat.lt_succ_self _, text, padded, spelled⟩
    · obtain ⟨before, less, rest⟩ := ready.nonces seen earlier
      exact ⟨before, Nat.lt_succ_of_lt less, rest⟩
  · obtain ⟨before, memory⟩ := ready.memory
    rw [memory] at committed
    obtain ⟨⟨_, after⟩, -, same⟩ := bind_eq_ok.mp committed
    exact ⟨after, (Prod.mk.inj (pure_eq_ok.mp same)).2.symm⟩
  · change store.tail.Encodable
    rw [recorded.tail]
    exact (encodable_of_digestValue recorded.digest).1
  · intro authorityId
    change activations.table authorityId = none ↔ _
    obtain ⟨-, table⟩ := ActivationStore.table_put put
    rw [table, prepared.activationId, prepared.authorityId, Function.update_apply]
    split
    · simp [*]
    · simp [ready.activations, *]

/-- A consumption uses up no identifier. -/
theorem Ready.consumed (ready : Ready index authorities world) (authorityId : Str) :
    Ready index authorities (World.exec (.consume authorityId) world).2 := by
  by_cases taken : (World.exec (.consume authorityId) world).1 = .ok true
  · obtain ⟨store, same, -, table, -⟩ := World.exec_consumed world taken
    rw [same]
    obtain ⟨state, nonces, memory, tail, activations⟩ := ready
    refine ⟨state, nonces, memory, tail, fun other => ?_⟩
    rw [← activations, table, ActivationTable.setUsed]
    split <;> simp [World.activations]
  · rwa [World.exec_consume_failed world taken]

/-- An applied effect uses up no identifier. -/
theorem Ready.applied {sink : NetworkFinalitySink} {request : SinkRequest}
    {authority : NetworkFinalityAuthority} (ready : Ready index authorities world) (hex : Str) :
    Ready index authorities (sink.applied request authority hex world) := by
  obtain ⟨state, nonces, memory, tail, activations⟩ := ready.consumed authority.authorityId
  exact ⟨state, nonces, memory, tail, activations⟩

/-- An applied effect is recorded, and takes the place of an earlier one. -/
theorem applied_effect {sink : NetworkFinalitySink} {request : SinkRequest}
    {authority : NetworkFinalityAuthority} (network : sink.network = 0) (hex : Str) :
    (sink.applied request authority hex world).effect 0 = Function.update (world.effect 0)
      (("net-effect-" : Str) ++ hex) (some (NetworkFinalitySink.effectOf request authority)) := by
  have kept : (World.exec (.consume authority.authorityId) world).2.effect = world.effect := by
    by_cases taken : (World.exec (.consume authority.authorityId) world).1 = .ok true
    · obtain ⟨store, same, -⟩ := World.exec_consumed world taken
      rw [same]
      rfl
    · rw [World.exec_consume_failed world taken]
  funext effectId
  rw [← kept, NetworkFinalitySink.applied, network]
  by_cases same : effectId = ("net-effect-" : Str) ++ hex
  · simp [World.effect, World.exec, DemoNetwork.apply, same]
  · simp [World.effect, World.exec, DemoNetwork.apply, Dict.get_set_ne _ _ same,
      Function.update_of_ne same]

/-! ### One iteration in a run -/

variable {signer : Signer} {verifier : Verifier} {iteration : Iteration}

/-- The sink allows what an iteration proposes until the candidate or the authority expires. -/
theorem benchmark_allows {candidate : NetworkCandidateAct} {effect : ProposedEffect}
    {decision : NetworkValidationDecision} {authority : NetworkFinalityAuthority} {issued : World}
    (signs : Signs signer verifier) (clock : DateTime)
    (made : benchmarkCandidate index iteration.created = .ok candidate)
    (proposed : makeEffect candidate [] [] [] none = .ok effect)
    (late : iteration.validated.micros < iteration.created.micros + 5000000)
    (issuing : ((benchmarkSystem signer verifier clock).ped.validateAndIssue iteration.draws
      candidate).run World.exec { world with clock := iteration.validated } =
        (.ok ⟨decision, some authority⟩, issued)) (requestId : Str) :
    (∃ response after, ((benchmarkSystem signer verifier clock).sink.verifyAndEffectuate
      ⟨requestId, candidate, some authority, effect⟩ (some iteration.effectHex)).run World.exec
        { issued with clock := iteration.verified } = (.ok response, after)) ↔
      iteration.verified.micros < iteration.created.micros + 5000000 ∧
        iteration.verified.micros < iteration.validated.micros + 4000000 := by
  obtain ⟨_, _, candidateActId, nonce, -, -, -, -, made⟩ := benchmarkCandidate_ok.mp made
  have descriptor := makeCandidate_sink made
  have conforms : Conforms candidate effect := makeEffect_conforms made proposed
  have sinkId : (benchmarkSystem signer verifier clock).sink.sinkId =
      candidate.finalitySink.sinkId := by rw [descriptor]; rfl
  have sinkType : (benchmarkSystem signer verifier clock).sink.sinkType =
      candidate.finalitySink.sinkType.value := by rw [descriptor]; rfl
  have verified : (benchmarkSystem signer verifier clock).ped.signer.VerifiedBy
      (benchmarkSystem signer verifier clock).sink.verifier := signs.toVerifiedBy
  rw [allows_until_expiry issuing verified sinkId sinkType rfl rfl conforms]
  obtain ⟨-, -, _, _, _, _, _, -, prepared, -⟩ := ProtectedEnforcementDomain.issued_run issuing
  have expiry := DateTime.add_ok prepared.expiresAt
  have expires : (candidate.expiresAt.micros : Int) = iteration.created.micros + 5000000 :=
    (makeCandidate_fields made).2.2
  have lives : (benchmarkSystem signer verifier clock).ped.policy.authorityTtl = 4000000 := rfl
  rw [lives, DateTime.sub, expires] at expiry
  rw [DateTime.lt_iff]
  dsimp only at expiry
  omega

/-- An iteration ends exactly when it keeps to the deadlines and draws a new identifier. -/
theorem benchmarkIteration_isOk_iff (ready : Ready index authorities world)
    (signs : Signs signer verifier) (clock : DateTime) (drawn : iteration.Drawn)
    (digits : (Value.int ((184991 + index + 1 : Nat) : Int)).Encodable) :
    (∃ after, benchmarkIteration (benchmarkSystem signer verifier clock) index iteration world =
      .ok after) ↔ iteration.Timely ∧ iteration.draws.authorityId ∉ authorities := by
  have digits' : (Value.int index).Encodable := Value.encodable_of_le (by omega) digits
  constructor
  · rintro ⟨after, ended⟩
    obtain ⟨candidate, effect, decision, authority, issued, text, response, made, proposed,
      issuing, -, allowed⟩ := benchmarkIteration_ok.mp ended
    obtain ⟨early, late⟩ :=
      (benchmark_grants ready made).mp (ProtectedEnforcementDomain.issued_run issuing).1
    obtain ⟨unexpired, lives⟩ :=
      (benchmark_allows signs clock made proposed late issuing _).mp ⟨response, after, allowed⟩
    exact ⟨⟨(benchmarkCandidate_isOk_iff digits').mp ⟨candidate, made⟩, early, late, unexpired,
      lives⟩, (benchmark_issues ready made digits drawn signs clock early late).mp
        ⟨decision, authority, issued, issuing⟩⟩
  · rintro ⟨⟨dated, early, late, unexpired, lives⟩, free⟩
    obtain ⟨candidate, made⟩ := (benchmarkCandidate_isOk_iff digits').mpr dated
    obtain ⟨decision, authority, issued, issuing⟩ :=
      (benchmark_issues ready made digits drawn signs clock early late).mpr free
    obtain ⟨effect, proposed⟩ : ∃ effect, makeEffect candidate [] [] [] none = .ok effect := by
      obtain ⟨_, _, candidateActId, nonce, -, -, -, -, made⟩ := benchmarkCandidate_ok.mp made
      obtain ⟨-, duration, -⟩ := makeCandidate_fields made
      obtain ⟨digest, digested⟩ := exists_standardDigest
      rw [makeEffect, duration]
      exact ⟨_, bind_eq_ok.mpr ⟨digest, digested, rfl⟩⟩
    obtain ⟨text, written⟩ : ∃ text, intText index = .ok text := by
      rcases digits' with _ | _ | small
      exact exists_intText.mpr small
    obtain ⟨response, after, allowed⟩ :=
      (benchmark_allows signs clock made proposed late issuing (("bench-" : Str) ++ text)).mpr
        ⟨unexpired, lives⟩
    exact ⟨after, benchmarkIteration_ok.mpr ⟨candidate, effect, decision, authority, issued, text,
      response, made, proposed, issuing, written, allowed⟩⟩

/-- What an iteration that ends uses up. -/
theorem benchmarkIteration_ready (ready : Ready index authorities world) {clock : DateTime}
    {after : World} (ended : benchmarkIteration (benchmarkSystem signer verifier clock) index
      iteration world = .ok after) :
    Ready (index + 1) (iteration.draws.authorityId :: authorities) after := by
  obtain ⟨candidate, effect, decision, authority, issued, text, response, made, -, issuing, -,
    allowed⟩ := benchmarkIteration_ok.mp ended
  obtain ⟨presented, _, _, hex, -, drawn, -, rfl⟩ :=
    NetworkFinalitySink.verifyAndEffectuate_ok.mp allowed
  obtain rfl := Option.some.inj drawn
  obtain ⟨-, nonce⟩ := benchmark_nonce ready made
  exact (((ready.clock _).issued nonce issuing).clock _).applied _

/-- What an iteration that ends records. -/
theorem benchmarkIteration_effect {clock : DateTime} {after : World}
    (ended : benchmarkIteration (benchmarkSystem signer verifier clock) index iteration world =
      .ok after) :
    ∃ text, zeroPadded 8 index = .ok text ∧ after.effect 0 =
      Function.update (world.effect 0) iteration.effectId (some (iteration.effect text)) := by
  obtain ⟨candidate, effect, decision, authority, issued, requestIndex, response, made, proposed,
    issuing, -, allowed⟩ := benchmarkIteration_ok.mp ended
  obtain ⟨presented, _, _, hex, permitted, drawn, -, rfl⟩ :=
    NetworkFinalitySink.verifyAndEffectuate_ok.mp allowed
  obtain rfl := Option.some.inj drawn
  obtain rfl := Option.some.inj permitted.presented
  obtain ⟨-, fields, evidence, store, activation, reads, activations, -, prepared, put, rfl⟩ :=
    ProtectedEnforcementDomain.issued_run issuing
  obtain ⟨text, _, candidateActId, nonce, padded, -, valid, -, made⟩ :=
    benchmarkCandidate_ok.mp made
  refine ⟨text, padded, ?_⟩
  have recorded : NetworkFinalitySink.effectOf ⟨("bench-" : Str) ++ requestIndex, candidate,
      some authority, effect⟩ authority = iteration.effect text := by
    rw [NetworkFinalitySink.effectOf, Iteration.effect, prepared.authorityId,
      ← MinStr.validate_ok valid]
    obtain ⟨expiresAt, -, made⟩ := bind_eq_ok.mp made
    obtain ⟨digest, -, made⟩ := bind_eq_ok.mp made
    obtain ⟨digest', -, proposed⟩ := bind_eq_ok.mp proposed
    obtain rfl := pure_eq_ok.mp proposed
    split at made
    · obtain rfl := pure_eq_ok.mp made
      rfl
    · cases made
  rw [applied_effect rfl, recorded]
  rfl

/-- The effect of a request changes no activation. -/
theorem applied_activations {sink : NetworkFinalitySink} {request : SinkRequest}
    {authority : NetworkFinalityAuthority} {hex : Str} :
    (sink.applied request authority hex world).activations =
      (World.exec (.consume authority.authorityId) world).2.activations := rfl

/-- An iteration that ends has consumed its authority, and keeps the earlier ones consumed. -/
theorem benchmarkIteration_used {system : ReferenceSystem} {after : World}
    (ended : benchmarkIteration system index iteration world = .ok after) {authorityId : Str}
    (used : authorityId = iteration.draws.authorityId ∨ world.activations.Used authorityId) :
    after.activations.Used authorityId := by
  obtain ⟨candidate, effect, decision, authority, issued, text, response, -, -, issuing, -,
    allowed⟩ := benchmarkIteration_ok.mp ended
  obtain ⟨presented, _, found, hex, permitted, drawn, -, rfl⟩ :=
    NetworkFinalitySink.verifyAndEffectuate_ok.mp allowed
  obtain rfl := Option.some.inj permitted.presented
  obtain ⟨-, fields, evidence, store, activation, reads, activations, -, prepared, put, rfl⟩ :=
    ProtectedEnforcementDomain.issued_run issuing
  obtain ⟨-, table⟩ := ActivationStore.table_put put
  obtain ⟨record, present, unused⟩ :=
    World.unused_of_reads permitted.activationStored permitted.unused
  obtain ⟨spent, same, -, consumed, -⟩ :=
    World.exec_consumed _ (World.exec_consume_unused _ present unused)
  rw [applied_activations, same]
  change spent.table.Used authorityId
  rw [consumed]
  by_cases own : authorityId = authority.authorityId
  · rw [own]
    exact ⟨_, ActivationTable.setUsed_self present true, rfl⟩
  · rw [ActivationTable.used_setUsed own]
    obtain rfl | ⟨earlier, recorded, flag⟩ := used
    · exact absurd prepared.authorityId.symm own
    · refine ⟨earlier, ?_, flag⟩
      change activations.table authorityId = some earlier
      rw [table, prepared.activationId, Function.update_of_ne own]
      exact recorded

/-! ### The loop -/

variable {iterations : List Iteration}

/-- The loop ends exactly when its iterations keep to the deadlines and draw new identifiers. -/
theorem benchmarkFrom_isOk_iff (ready : Ready index authorities world)
    (signs : Signs signer verifier) (clock : DateTime)
    (drawn : ∀ iteration ∈ iterations, iteration.Drawn)
    (digits : (Value.int ((184991 + index + iterations.length : Nat) : Int)).Encodable) :
    (∃ after, benchmarkFrom (benchmarkSystem signer verifier clock) index iterations world =
      .ok after) ↔ (∀ iteration ∈ iterations, iteration.Timely) ∧
        (iterations.map (·.draws.authorityId)).Nodup ∧
        ∀ iteration ∈ iterations, iteration.draws.authorityId ∉ authorities := by
  induction iterations generalizing index authorities world with
  | nil => simp [benchmarkFrom]
  | cons iteration iterations inductionHypothesis =>
      obtain ⟨drawnHead, drawnTail⟩ := List.forall_mem_cons.mp drawn
      rw [List.length_cons] at digits
      have head := benchmarkIteration_isOk_iff ready signs clock drawnHead
        (Value.encodable_of_le (by omega) digits)
      have tail {next : World} (ended : benchmarkIteration (benchmarkSystem signer verifier clock)
          index iteration world = .ok next) :=
        inductionHypothesis (benchmarkIteration_ready ready ended) drawnTail
          (by rwa [show 184991 + (index + 1) + iterations.length =
            184991 + index + (iterations.length + 1) by omega])
      rw [List.forall_mem_cons, List.forall_mem_cons, List.map_cons, List.nodup_cons, List.mem_map]
      simp only [benchmarkFrom, stop_bind_eq_ok]
      constructor
      · rintro ⟨after, next, ended, rest⟩
        obtain ⟨timely, free⟩ := head.mp ⟨next, ended⟩
        obtain ⟨timelyTail, distinct, freeTail⟩ := (tail ended).mp ⟨after, rest⟩
        refine ⟨⟨timely, timelyTail⟩, ⟨?_, distinct⟩, free, fun other member =>
          fun earlier => freeTail other member (List.mem_cons_of_mem _ earlier)⟩
        rintro ⟨other, member, same⟩
        exact freeTail other member (same ▸ List.mem_cons_self)
      · rintro ⟨⟨timely, timelyTail⟩, ⟨different, distinct⟩, free, freeTail⟩
        obtain ⟨next, ended⟩ := head.mpr ⟨timely, free⟩
        obtain ⟨after, rest⟩ := (tail ended).mpr ⟨timelyTail, distinct, fun other member earlier =>
          (List.mem_cons.mp earlier).elim (fun same => different ⟨other, member, same⟩)
            (freeTail other member)⟩
        exact ⟨after, next, ended, rest⟩

/-- What the loop uses up. -/
theorem benchmarkFrom_ready (ready : Ready index authorities world) {clock : DateTime}
    {after : World} (ended : benchmarkFrom (benchmarkSystem signer verifier clock) index iterations
      world = .ok after) :
    Ready (index + iterations.length)
      ((iterations.map (·.draws.authorityId)).reverse ++ authorities) after := by
  induction iterations generalizing index authorities world with
  | nil =>
      obtain rfl := Except.ok.inj ended
      exact ready
  | cons iteration iterations inductionHypothesis =>
      obtain ⟨next, first, rest⟩ := stop_bind_eq_ok.mp ended
      have later := inductionHypothesis (benchmarkIteration_ready ready first) rest
      simpa [Nat.add_assoc, Nat.add_comm 1] using later

/-- The loop leaves every authority consumed. -/
theorem benchmarkFrom_used {system : ReferenceSystem} {after : World}
    (ended : benchmarkFrom system index iterations world = .ok after) {authorityId : Str}
    (used : authorityId ∈ iterations.map (·.draws.authorityId) ∨
      world.activations.Used authorityId) :
    after.activations.Used authorityId := by
  induction iterations generalizing index world with
  | nil =>
      obtain rfl := Except.ok.inj ended
      simpa using used
  | cons iteration iterations inductionHypothesis =>
      obtain ⟨next, first, rest⟩ := stop_bind_eq_ok.mp ended
      refine inductionHypothesis rest ?_
      rw [List.map_cons, List.mem_cons] at used
      rcases used with (own | later) | earlier
      · exact .inr (benchmarkIteration_used first (.inl own))
      · exact .inl later
      · exact .inr (benchmarkIteration_used first (.inr earlier))

/-- The loop records the effect of each iteration, unless a later one draws its identifier, and
nothing else. -/
theorem benchmarkFrom_effects {clock : DateTime} {after : World}
    (ended : benchmarkFrom (benchmarkSystem signer verifier clock) index iterations world =
      .ok after) :
    (∀ place iteration, DrawnLast iterations place iteration →
      ∃ text, zeroPadded 8 (index + place) = .ok text ∧
        after.effect 0 iteration.effectId = some (iteration.effect text)) ∧
    ∀ effectId ∉ iterations.map (·.effectId), after.effect 0 effectId = world.effect 0 effectId := by
  induction iterations generalizing index world with
  | nil =>
      obtain rfl := Except.ok.inj ended
      refine ⟨?_, fun _ _ => rfl⟩
      rintro place iteration ⟨drawn, -⟩
      simp at drawn
  | cons head iterations inductionHypothesis =>
      obtain ⟨next, first, rest⟩ := stop_bind_eq_ok.mp ended
      obtain ⟨text, padded, records⟩ := benchmarkIteration_effect first
      obtain ⟨recorded, kept⟩ := inductionHypothesis rest
      constructor
      · rintro (_ | place) iteration ⟨drawn, last⟩
        · obtain rfl := Option.some.inj drawn
          refine ⟨text, padded, ?_⟩
          rw [kept, records, Function.update_self]
          intro again
          obtain ⟨other, member, same⟩ := List.mem_map.mp again
          obtain ⟨later, found⟩ := List.mem_iff_getElem?.mp member
          exact last (later + 1) other (Nat.succ_pos later) found same
        · rw [show index + (place + 1) = index + 1 + place by omega]
          refine recorded place iteration ⟨drawn, fun later other after found => ?_⟩
          exact last (later + 1) other (Nat.succ_lt_succ after) found
      · intro effectId absent
        rw [List.map_cons, List.mem_cons, not_or] at absent
        rw [kept effectId absent.2, records, Function.update_of_ne absent.1]

omit [Hashlib] in
/-- Of the iterations that draw an identifier, one is the last. -/
theorem exists_drawnLast {effectId : Str} (drawn : effectId ∈ iterations.map (·.effectId)) :
    ∃ place iteration, DrawnLast iterations place iteration ∧ iteration.effectId = effectId := by
  induction iterations with
  | nil => cases drawn
  | cons head iterations inductionHypothesis =>
      by_cases again : effectId ∈ iterations.map (·.effectId)
      · obtain ⟨place, iteration, ⟨found, last⟩, named⟩ := inductionHypothesis again
        refine ⟨place + 1, iteration, ⟨found, ?_⟩, named⟩
        rintro (_ | later) other after found'
        · cases after
        · exact last later other (Nat.lt_of_succ_lt_succ after) found'
      · rw [List.map_cons, List.mem_cons] at drawn
        obtain rfl := drawn.resolve_right again
        refine ⟨0, head, ⟨rfl, ?_⟩, rfl⟩
        rintro (_ | later) other after found' same
        · cases after
        · exact again (List.mem_map.mpr ⟨other, List.mem_of_getElem? found', same⟩)

/-- The benchmark ends exactly when every iteration keeps to the deadlines and no authority
identifier is drawn twice. It then has consumed every authority it issued, and has recorded,
under each effect identifier that was drawn, the effect of the last iteration that drew it. -/
theorem benchmark_ends_iff (signs : Signs signer verifier) (clock : DateTime)
    (drawn : ∀ iteration ∈ iterations, iteration.Drawn)
    (digits : (Value.int ((184991 + iterations.length : Nat) : Int)).Encodable) :
    ((∃ after, benchmark signer verifier clock iterations = .ok after) ↔
      (∀ iteration ∈ iterations, iteration.Timely) ∧
        (iterations.map (·.draws.authorityId)).Nodup) ∧
    ∀ after, benchmark signer verifier clock iterations = .ok after →
      after.state.monotonicCounter = ((184991 + iterations.length : Nat) : Int) ∧
      (∀ authorityId, after.activations authorityId ≠ none →
        authorityId ∈ iterations.map (·.draws.authorityId)) ∧
      (∀ authorityId ∈ iterations.map (·.draws.authorityId),
        after.activations.Used authorityId) ∧
      (∀ place iteration, DrawnLast iterations place iteration →
        ∃ text, zeroPadded 8 place = .ok text ∧
          after.effect 0 iteration.effectId = some (iteration.effect text)) ∧
      ∀ effectId, (after.effect 0 effectId).isSome = true ↔
        effectId ∈ iterations.map (·.effectId) := by
  have start : Ready 0 [] (benchmarkSystem signer verifier clock).world := ready_start
  refine ⟨?_, fun after ended => ?_⟩
  · have ends := benchmarkFrom_isOk_iff start signs clock drawn digits
    simpa [benchmark] using ends
  · have ready := benchmarkFrom_ready start ended
    simp only [List.append_nil, Nat.zero_add] at ready
    obtain ⟨recorded, kept⟩ := benchmarkFrom_effects ended
    simp only [Nat.zero_add] at recorded
    refine ⟨?_, fun authorityId present => ?_, fun authorityId member =>
      benchmarkFrom_used ended (.inl member), recorded, fun effectId => ⟨?_, ?_⟩⟩
    · rw [ready.state]
    · by_contra absent
      exact present ((ready.activations authorityId).mpr (by rwa [List.mem_reverse]))
    · contrapose!
      intro absent
      rw [kept effectId absent]
      simp [World.effect, buildReferenceSystem]
    · intro member
      obtain ⟨place, iteration, last, rfl⟩ := exists_drawnLast member
      obtain ⟨text, -, found⟩ := recorded place iteration last
      rw [found]
      rfl

end

namespace Reference

/-- Three iterations without any delay. The last draws the effect identifier of the first. -/
def iterations : List Iteration :=
  [⟨clock, clock, clock, draws, "0000000001"⟩,
    ⟨clock, clock, clock, { draws with authorityHex := "000000000004" }, "0000000002"⟩,
    ⟨clock, clock, clock, { draws with authorityHex := "000000000005" }, "0000000001"⟩]

theorem signs : Signs signer verifier where
  toVerifiedBy := signer_verifiedBy
  written := signer_written
  keyText := Str.encodable_ofString _
  algorithmText := Str.encodable_ofString _

/-- All iterations end, and the effect of the last is recorded in place of that of the first. -/
theorem benchmark_ends_iff_iterations :
    ∃ after, @benchmark .checksum signer verifier clock iterations = .ok after ∧
      after.state.monotonicCounter = 184994 ∧
      (after.effect 0 "net-effect-0000000001").map (·.authorityId) = some "nfa-000000000005" ∧
      (after.effect 0 "net-effect-0000000002").map (·.authorityId) = some "nfa-000000000004" := by
  have textual (label hex : String) : (Str.ofString label ++ Str.ofString hex).Encodable :=
    Str.encodable_append.mpr ⟨Str.encodable_ofString _, Str.encodable_ofString _⟩
  have drawn : ∀ iteration ∈ iterations, iteration.Drawn := by
    simp only [iterations, List.forall_mem_cons]
    exact ⟨⟨textual _ _, textual _ _, textual _ _⟩, ⟨textual _ _, textual _ _, textual _ _⟩,
      ⟨textual _ _, textual _ _, textual _ _⟩, by rintro _ ⟨⟩⟩
  have timely : ∀ iteration ∈ iterations, iteration.Timely := by
    have instant {time : DateTime} (dated : time.micros + 5000000 < maxMicros)
        (draws : IssueDraws) (hex : Str) : Iteration.Timely ⟨time, time, time, draws, hex⟩ :=
      ⟨dated, DateTime.le_iff.mpr (Nat.le_refl _), Nat.lt_add_of_pos_right (by decide),
        Nat.lt_add_of_pos_right (by decide), Nat.lt_add_of_pos_right (by decide)⟩
    simp only [iterations, List.forall_mem_cons]
    exact ⟨instant (by decide) _ _, instant (by decide) _ _, instant (by decide) _ _,
      by rintro _ ⟨⟩⟩
  have digits : (Value.int ((184991 + iterations.length : Nat) : Int)).Encodable :=
    Value.encodable_of_small (by decide)
  obtain ⟨ends, leaves⟩ := @benchmark_ends_iff .checksum signer verifier iterations signs clock
    drawn digits
  obtain ⟨after, ended⟩ := ends.mpr ⟨timely, by decide⟩
  obtain ⟨counter, -, -, recorded, -⟩ := leaves after ended
  have second : DrawnLast iterations 1 _ := ⟨rfl, by
    rintro (_ | _ | _ | later) other after found same <;> simp [iterations] at after found
    subst found
    revert same
    decide⟩
  have third : DrawnLast iterations 2 _ := ⟨rfl, by
    rintro (_ | _ | _ | later) other after found <;> simp [iterations] at after found⟩
  obtain ⟨_, -, kept⟩ := recorded 1 _ second
  obtain ⟨_, -, replaced⟩ := recorded 2 _ third
  exact ⟨after, ended, counter, congrArg (Option.map (·.authorityId)) replaced,
    congrArg (Option.map (·.authorityId)) kept⟩

end Reference

end NetworkFinality
