import NetworkFinality.Spec.Permit

/-!
# The guards around the consumption flag

The guards look at the consumption flag between two kinds of reads: those of the clock, the
evidence and the activation record before it, and those of the protected state behind it.
Taken apart there, a call shows what it knows when it looks at the flag, and that whoever
finds the flag set is denied for that reason and no other.
-/

namespace NetworkFinality

open Python Semantics Procedure

/-- The operation reads what no sink call changes. -/
def Op.isFixed : Op → Bool
  | .getEvidence _ => true
  | op => op.readsState

theorem Op.isFixed_of_readsState {op : Op} (reads : op.readsState = true) : op.isFixed = true := by
  cases op <;> first | rfl | cases reads

theorem Op.isWrite_of_isFixed {op : Op} (fixed : op.isFixed = true) : op.isWrite = false := by
  cases op <;> first | rfl | cases fixed

/-- The conditions of the guards before the consumption flag. -/
structure LocallyAdmitted [Hashlib] (sink : NetworkFinalitySink) (request : SinkRequest)
    (authority : NetworkFinalityAuthority) (now : DateTime) (evidence : EvidenceRecord)
    (activation : ActivationRecord) : Prop extends
    Authenticated sink request authority now,
    EvidenceMatches request.candidate authority evidence,
    ActivationMatches sink authority now authority.binding.candidateActDigest.value activation

section

variable [Hashlib] {sink : NetworkFinalitySink} {request : SinkRequest}
  {authority : NetworkFinalityAuthority} {now : DateTime} {evidence : EvidenceRecord}
  {activation : ActivationRecord}

/-- The guards do not look at the flag in the activation record. -/
theorem LocallyAdmitted.withUsed
    (admitted : LocallyAdmitted sink request authority now evidence activation) (used : Bool) :
    LocallyAdmitted sink request authority now evidence (activation.withUsed used) where
  toAuthenticated := admitted.toAuthenticated
  toEvidenceMatches := admitted.toEvidenceMatches
  activationUnexpired := admitted.activationUnexpired
  activationSink := admitted.activationSink
  activationAuthority := admitted.activationAuthority
  activationCandidate := admitted.activationCandidate
  activationCommitment := admitted.activationCommitment

theorem ScopeMatches.withUsed (matches_ : ScopeMatches request authority activation) (used : Bool) :
    ScopeMatches request authority (activation.withUsed used) :=
  { matches_ with activationNonce := matches_.activationNonce }

omit [Hashlib] in
/-- Records that agree up to the flag. -/
theorem ActivationRecord.eq_withUsed {found record : ActivationRecord}
    (same : found.withUsed false = record.withUsed false) : found = record.withUsed found.used := by
  have flagged := congrArg (fun kept : ActivationRecord => kept.withUsed found.used) same
  exact flagged

end

/-- The checks a request has passed when its activation record is the right one. -/
def localChecks : Dict Str :=
  (((Dict.set ∅ "authority_signature" ("VALID" : Str)).set "candidate_act_binding" "MATCH").set
    "evidence_binding" "MATCH").set "activation_binding" "MATCH"

namespace NetworkFinalitySink

variable [Hashlib]

/-- The guards that read the clock and the evidence. -/
def matchLocal (sink : NetworkFinalitySink) (request : SinkRequest) :
    Program (DateTime × NetworkFinalityAuthority × Str × Dict Str) := do
  let now ← ask .clock
  let (authority, checks) ← sink.authenticate request now
  let (digest, checks) ← matchEvidence request authority checks
  return (now, authority, digest, checks)

/-- What the guards make of the activation record. -/
def matchRecord (sink : NetworkFinalitySink) (request : SinkRequest)
    (authority : NetworkFinalityAuthority) (now : DateTime) (digest : Str) (checks : Dict Str)
    (found : Except PyError (Option ActivationRecord)) : Program (ActivationRecord × Dict Str) := do
  let id := some authority.authorityId
  let found ← orRaise found
  let activation ← orRefuse found request .activationMissing
    "sink-local activation state is absent" checks id
  refuseIf (activation.expiresAt ≤ now)
    request .staleAuthority "sink-local activation state is expired" checks id
  refuseIf (activation.sinkId ≠ sink.sinkId)
    request .sinkMismatch "activation state is bound to a different sink" checks id
  let authorityDigest ← orRaise (authorityDigest authority)
  refuseIf (activation.authorityDigest ≠ authorityDigest ∨ activation.candidateDigest ≠ digest)
    request .protectedStateMismatch "sink-local activation state does not match authority" checks id
  refuseIf (activation.activationCommitment ≠ authority.binding.activationCommitment)
    request .protectedStateMismatch "activation commitment mismatch" checks id
  return (activation, checks.set "activation_binding" "MATCH")

omit [Hashlib] in
/-- What the guards make of the consumption flag. -/
def matchUnused (request : SinkRequest) (authority : NetworkFinalityAuthority) (checks : Dict Str)
    (used : Except PyError Bool) : Program (Dict Str) := do
  let used ← orRaise used
  refuseIf (used = true)
    request .authorityAlreadyUsed "single-use authority has already been consumed" checks
    (some authority.authorityId)
  return checks.set "consumption_state" "UNUSED"

/-- The guards behind the consumption flag. -/
def matchCurrent (sink : NetworkFinalitySink) (request : SinkRequest)
    (authority : NetworkFinalityAuthority) (activation : ActivationRecord) (checks : Dict Str) :
    Program (NetworkFinalityAuthority × Dict Str) := do
  let checks ← sink.matchSink request authority checks
  let checks ← matchState request authority checks
  let checks ← matchScope request authority activation checks
  return (authority, checks)

omit [Hashlib] in
/-- What follows the effect. -/
def afterApply (request : SinkRequest) (authority : NetworkFinalityAuthority)
    (checks : Dict Str) (applied : Except PyError Str) : Program SinkVerifyResponse :=
  match applied with
  | .ok effectId => return allow request authority checks effectId
  | .error error => do
      let undone ← ask (.unconsume authority.authorityId)
      orRaise undone
      .exit (.raised error)

omit [Hashlib] in
/-- What follows the consumption. -/
def afterConsume (sink : NetworkFinalitySink) (request : SinkRequest) (draw : Option Str)
    (authority : NetworkFinalityAuthority) (checks : Dict Str) (consumed : Except PyError Bool) :
    Program SinkVerifyResponse := do
  let consumed ← orRaise consumed
  refuseIf (consumed = false)
    request .authorityAlreadyUsed "authority could not be consumed" checks
    (some authority.authorityId)
  let applied ← ask (.apply sink.network (effectOf request authority) draw)
  afterApply request authority checks applied

omit [Hashlib] in
/-- What follows the look at the flag under the lock. -/
def afterLook (sink : NetworkFinalitySink) (request : SinkRequest) (draw : Option Str)
    (authority : NetworkFinalityAuthority) (checks : Dict Str) (used : Except PyError Bool) :
    Program SinkVerifyResponse := do
  let used ← orRaise used
  refuseIf (used = true)
    request .authorityAlreadyUsed "authority was consumed concurrently" checks
    (some authority.authorityId)
  let consumed ← ask (.consume authority.authorityId)
  afterConsume sink request draw authority checks consumed

/-- What follows the look at the consumption flag. -/
def afterFlag (sink : NetworkFinalitySink) (request : SinkRequest) (draw : Option Str)
    (authority : NetworkFinalityAuthority) (activation : ActivationRecord) (checks : Dict Str)
    (used : Except PyError Bool) : Program SinkVerifyResponse := do
  let checks ← matchUnused request authority checks used
  let (authority, checks) ← sink.matchCurrent request authority activation checks
  sink.effectuate request draw authority checks

/-- A call, taken apart at the consumption flag. -/
theorem verifyAndEffectuate_eq (sink : NetworkFinalitySink) (request : SinkRequest)
    (draw : Option Str) : sink.verifyAndEffectuate request draw = (do
      let (now, authority, digest, checks) ← sink.matchLocal request
      let found ← ask (.getActivation authority.authorityId)
      let (activation, checks) ← sink.matchRecord request authority now digest checks found
      let used ← ask (.isUsed authority.authorityId)
      sink.afterFlag request draw authority activation checks used) := by
  simp only [verifyAndEffectuate, verify, matchLocal, matchActivation, matchRecord, afterFlag,
    matchUnused, matchCurrent, bind_assoc, pure_eq_done, done_bind]

variable {sink : NetworkFinalitySink} {request : SinkRequest} {draw : Option Str}
  {past : List (Event system)}

section

omit [Hashlib]

variable {authority : NetworkFinalityAuthority} {checks : Dict Str}

theorem effectuate_eq : sink.effectuate request draw authority checks =
    .call (.isUsed authority.authorityId) (sink.afterLook request draw authority checks) := by
  refine congrArg (Procedure.call _) (funext fun used => ?_)
  rcases used with error | _ | _
  · rfl
  · refine congrArg (Procedure.call _) (funext fun consumed => ?_)
    rcases consumed with error | _ | _
    · rfl
    · rfl
    · refine congrArg (Procedure.call _) (funext fun applied => ?_)
      cases applied <;> rfl
  · rfl

theorem afterLook_used : sink.afterLook request draw authority checks (.ok true) =
    .exit (.denied (deny request.requestId .authorityAlreadyUsed
      "authority was consumed concurrently" checks (some authority.authorityId))) := by
  rw [afterLook, orRaise_ok, done_bind, refuseIf, exitIf_pos rfl, exit_bind]

theorem afterLook_unused : sink.afterLook request draw authority checks (.ok false) =
    .call (.consume authority.authorityId) (sink.afterConsume request draw authority checks) := by
  rw [afterLook, orRaise_ok, done_bind, refuseIf, exitIf_neg (by simp)]
  rfl

theorem afterConsume_refused : sink.afterConsume request draw authority checks (.ok false) =
    .exit (.denied (deny request.requestId .authorityAlreadyUsed
      "authority could not be consumed" checks (some authority.authorityId))) := by
  rw [afterConsume, orRaise_ok, done_bind, refuseIf, exitIf_pos rfl, exit_bind]

theorem afterConsume_consumed : sink.afterConsume request draw authority checks (.ok true) =
    .call (.apply sink.network (effectOf request authority) draw)
      (afterApply request authority checks) := by
  rw [afterConsume, orRaise_ok, done_bind, refuseIf, exitIf_neg (by simp)]
  rfl

end

section

variable {authority : NetworkFinalityAuthority} {activation : ActivationRecord} {checks : Dict Str}

theorem afterFlag_used : sink.afterFlag request draw authority activation checks (.ok true) =
    .exit (.denied (deny request.requestId .authorityAlreadyUsed
      "single-use authority has already been consumed" checks (some authority.authorityId))) := by
  rw [afterFlag, matchUnused, orRaise_ok, done_bind, refuseIf, exitIf_pos rfl, exit_bind, exit_bind]

/-- Nor does what follows. -/
theorem afterFlag_withUsed (flag : Bool) (used : Except PyError Bool) :
    sink.afterFlag request draw authority (activation.withUsed flag) checks used =
      sink.afterFlag request draw authority activation checks used := rfl

theorem afterFlag_unused : sink.afterFlag request draw authority activation checks (.ok false) =
    sink.matchCurrent request authority activation (checks.set "consumption_state" "UNUSED") >>=
      fun (authority, checks) => sink.effectuate request draw authority checks := by
  rw [afterFlag, matchUnused, orRaise_ok, done_bind, refuseIf, exitIf_neg (by simp), done_bind,
    pure_eq_done, done_bind]

end

/-- The first guards read the clock and the evidence, and admit what they let pass. -/
theorem matchLocal_returns {now : DateTime} {authority : NetworkFinalityAuthority} {digest : Str}
    {checks : Dict Str} :
    (sink.matchLocal request).Returns past (now, authority, digest, checks) ↔
      ∃ evidence, past = [⟨.clock, now⟩,
          ⟨.getEvidence authority.binding.evidenceId, .ok (some evidence)⟩] ∧
        digest = authority.binding.candidateActDigest.value ∧
        checks = ((Dict.set ∅ "authority_signature" ("VALID" : Str)).set "candidate_act_binding"
          "MATCH").set "evidence_binding" "MATCH" ∧
        Authenticated sink request authority now ∧
        EvidenceMatches request.candidate authority evidence := by
  simp only [matchLocal, returns_bind, pure_eq_done, returns_done, Prod.exists, Prod.mk.injEq,
    authenticate_returns, matchEvidence_returns]
  constructor
  · rintro ⟨now, _, _, clock, ⟨authority, _, _, _, ⟨rfl, rfl, authenticated⟩, ⟨digest, _, _, _,
      ⟨evidence, rfl, rfl, rfl, matched⟩, ⟨rfl, rfl, rfl, rfl, rfl⟩, rfl⟩, rfl⟩, rfl⟩
    obtain rfl := returns_ask.mp clock
    exact ⟨evidence, rfl, rfl, rfl, authenticated, matched⟩
  · rintro ⟨evidence, rfl, rfl, rfl, authenticated, matched⟩
    exact ⟨now, _, _, returns_ask.mpr rfl, ⟨authority, _, _, _, ⟨rfl, rfl, authenticated⟩,
      ⟨_, _, _, _, ⟨evidence, rfl, rfl, rfl, matched⟩, ⟨rfl, rfl, rfl, rfl, rfl⟩, rfl⟩, rfl⟩, rfl⟩

/-- The record is let pass exactly when it is that of the authority. -/
theorem matchRecord_returns {now : DateTime} {authority : NetworkFinalityAuthority} {digest : Str}
    {checks result : Dict Str} {found : Except PyError (Option ActivationRecord)}
    {activation : ActivationRecord} :
    (sink.matchRecord request authority now digest checks found).Returns past (activation, result) ↔
      past = [] ∧ found = .ok (some activation) ∧
        result = checks.set "activation_binding" "MATCH" ∧
        ActivationMatches sink authority now digest activation := by
  simp [matchRecord, activationMatches_iff]
  grind

/-- The guards behind the flag pass on the remaining reads of `guardEvents`. -/
theorem matchCurrent_returns {authority authority' : NetworkFinalityAuthority}
    {activation : ActivationRecord} {result : Dict Str}
    (returned : (sink.matchCurrent request authority activation
      (localChecks.set "consumption_state" "UNUSED")).Returns past (authority', result)) :
    authority' = authority ∧ result = guardChecks ∧ SinkMatches sink request.candidate authority ∧
      ScopeMatches request authority activation ∧
      past = [⟨.protectedStateReference, authority.binding.protectedStateReference⟩,
        ⟨.epoch .topology, (authority.binding.topologyEpoch : Int)⟩,
        ⟨.epoch .configuration, (authority.binding.configurationEpoch : Int)⟩,
        ⟨.epoch .policy, (authority.binding.policyEpoch : Int)⟩,
        ⟨.epoch .authority, (authority.binding.authorityEpoch : Int)⟩,
        ⟨.epoch .revocation, (authority.binding.revocationEpoch : Int)⟩] := by
  simp only [matchCurrent, returns_bind, pure_eq_done, returns_done, Prod.mk.injEq,
    matchSink_returns, matchState_returns, matchScope_returns] at returned
  obtain ⟨_, _, _, ⟨rfl, rfl, sinkMatches⟩, ⟨_, _, _, ⟨rfl, rfl⟩, ⟨_, _, _,
    ⟨rfl, rfl, scopeMatches⟩, ⟨rfl, rfl, rfl⟩, rfl⟩, rfl⟩, rfl⟩ := returned
  exact ⟨rfl, rfl, sinkMatches, scopeMatches, rfl⟩

/-! ### What a call may do before and behind the flag -/

theorem matchLocal_fixed : (sink.matchLocal request).Uses fun op : Op => op.isFixed = true := by
  refine Uses.bind (uses_perform.mpr rfl) fun now => ?_
  refine Uses.bind authenticate_uses fun _ => ?_
  exact Uses.bind (matchEvidence_uses rfl) fun _ => uses_done

theorem matchRecord_silent {authority : NetworkFinalityAuthority} {now : DateTime} {digest : Str}
    {checks : Dict Str} {found : Except PyError (Option ActivationRecord)} :
    (sink.matchRecord request authority now digest checks found).Uses fun _ => False := by
  refine Uses.bind uses_orRaise fun found => Uses.bind uses_orRefuse fun activation => ?_
  refine Uses.bind uses_exitIf fun _ => Uses.bind uses_exitIf fun _ => ?_
  refine Uses.bind uses_orRaise fun digest => Uses.bind uses_exitIf fun _ => ?_
  exact Uses.bind uses_exitIf fun _ => uses_done

/-- Behind the flag the guards read the protected state. -/
theorem matchCurrent_state {authority : NetworkFinalityAuthority} {activation : ActivationRecord}
    {checks : Dict Str} : OnlyState (sink.matchCurrent request authority activation checks) := by
  refine Uses.bind matchSink_uses fun checks => ?_
  refine Uses.bind (matchState_uses rfl fun _ => rfl) fun checks => ?_
  exact Uses.bind matchScope_uses fun _ => uses_done

/-- How far a call comes before it has looked at the consumption flag. -/
inductive BeforeFlag (sink : NetworkFinalitySink) (request : SinkRequest) (draw : Option Str) :
    List (Event system) → Program SinkVerifyResponse → Prop where
  | left {past : List (Event system)} (reason : Exit) : BeforeFlag sink request draw past (.exit reason)
  | reading {past : List (Event system)} {op : Op} {next : op.Answer → Program SinkVerifyResponse}
      (before : ∀ event ∈ past, event.op.isFixed = true)
      (reads : op.isFixed = true ∨ ∃ id, op = .getActivation id) :
      BeforeFlag sink request draw past (.call op next)
  | looking {now : DateTime} {authority : NetworkFinalityAuthority} {evidence : EvidenceRecord}
      {activation : ActivationRecord}
      (admitted : LocallyAdmitted sink request authority now evidence activation) :
      BeforeFlag sink request draw
        [⟨.clock, now⟩, ⟨.getEvidence authority.binding.evidenceId, .ok (some evidence)⟩,
          ⟨.getActivation authority.authorityId, .ok (some activation)⟩]
        (.call (.isUsed authority.authorityId)
          (sink.afterFlag request draw authority activation localChecks))

theorem beforeFlag_of_path {rest : Program SinkVerifyResponse}
    (path : (sink.verifyAndEffectuate request draw).Path past rest)
    (unlooked : ∀ event ∈ past, ∀ id, event.op ≠ .isUsed id) :
    BeforeFlag sink request draw past rest := by
  rw [verifyAndEffectuate_eq] at path
  rcases path_bind path with ⟨q, inside, rfl, unfinished⟩ | ⟨⟨now, authority, digest, checks⟩,
    first, second, matched, reading, rfl⟩
  · have remaining := matchLocal_fixed.remains inside
    rcases q with value | reason | ⟨op, next⟩
    · exact absurd rfl (unfinished value)
    · exact .left reason
    · exact .reading (matchLocal_fixed.events inside) (.inl (uses_call.mp remaining).1)
  obtain ⟨evidence, rfl, rfl, rfl, authenticated, evidenceMatches⟩ := matchLocal_returns.mp matched
  simp only [ask, perform, call_bind, done_bind] at reading
  rcases path_call_iff.mp reading with ⟨rfl, rfl⟩ | ⟨found, tail, rfl, recording⟩
  · exact .reading (by simp [Op.isFixed, Op.readsState, Op.observesState]) (.inr ⟨_, rfl⟩)
  rcases path_bind recording with ⟨q, inside, rfl, unfinished⟩ | ⟨⟨activation, checks⟩, first,
    second, recorded, looking, rfl⟩
  · have remaining := matchRecord_silent.remains inside
    rcases q with value | reason | ⟨op, next⟩
    · exact absurd rfl (unfinished value)
    · exact .left reason
    · exact (uses_call.mp remaining).1.elim
  obtain ⟨rfl, rfl, rfl, activationMatches⟩ := matchRecord_returns.mp recorded
  rcases path_call_iff.mp looking with ⟨rfl, rfl⟩ | ⟨used, tail, rfl, -⟩
  · exact .looking ⟨authenticated, evidenceMatches, activationMatches⟩
  · exact absurd rfl (unlooked ⟨.isUsed authority.authorityId, used⟩ (by simp) authority.authorityId)

/-- Where every earlier guard passes, a call runs on from the look at the flag. -/
theorem run_at_flag {world : World} {authority : NetworkFinalityAuthority}
    {evidence : EvidenceRecord} {activation : ActivationRecord} {used : Except PyError Bool}
    (admitted : LocallyAdmitted sink request authority world.clock evidence activation)
    (evidenceStored : world.evidenceStore.get authority.binding.evidenceId = .ok (some evidence))
    (activationStored : world.activationStore.get authority.authorityId = .ok (some activation))
    (flag : world.activationStore.isUsed authority.authorityId = used) :
    (sink.verifyAndEffectuate request draw).run World.exec world =
      (sink.afterFlag request draw authority activation localChecks used).run World.exec world := by
  obtain ⟨checks, matched, recorded⟩ : ∃ checks,
      (sink.matchLocal request).run World.exec world =
        (.ok (world.clock, authority, authority.binding.candidateActDigest.value, checks), world) ∧
      (sink.matchRecord request authority world.clock authority.binding.candidateActDigest.value
        checks (.ok (some activation))).run World.exec world =
          (.ok (activation, localChecks), world) :=
    ⟨_, (run_ok_iff World.exec).mpr ⟨_, matchLocal_returns.mpr ⟨evidence, rfl, rfl, rfl,
      admitted.toAuthenticated, admitted.toEvidenceMatches⟩, rfl, evidenceStored.symm, rfl⟩,
      (run_ok_iff World.exec).mpr ⟨[], matchRecord_returns.mpr ⟨rfl, rfl, rfl,
        admitted.toActivationMatches⟩, rfl⟩⟩
  have activationRead : World.exec (.getActivation authority.authorityId) world =
      (.ok (some activation), world) := by
    rw [World.exec, activationStored]
  have flagRead : World.exec (.isUsed authority.authorityId) world = (used, world) := by
    rw [World.exec, flag]
  rw [verifyAndEffectuate_eq, run_bind, matched]
  simp only [ask, perform, call_bind, done_bind, run_call, activationRead]
  rw [run_bind, recorded]
  simp only [run_call, flagRead]

/-- Whoever finds the flag set where every earlier guard passes is denied for that. -/
theorem run_used {world : World} {authority : NetworkFinalityAuthority} {evidence : EvidenceRecord}
    {activation : ActivationRecord}
    (admitted : LocallyAdmitted sink request authority world.clock evidence activation)
    (evidenceStored : world.evidenceStore.get authority.binding.evidenceId = .ok (some evidence))
    (activationStored : world.activationStore.get authority.authorityId = .ok (some activation))
    (used : world.activationStore.isUsed authority.authorityId = .ok true) :
    (sink.verifyAndEffectuate request draw).run World.exec world =
      (.error (.denied (deny request.requestId .authorityAlreadyUsed
        "single-use authority has already been consumed" localChecks
        (some authority.authorityId))), world) := by
  rw [run_at_flag admitted evidenceStored activationStored used, afterFlag_used, run_exit]

end NetworkFinalitySink
end NetworkFinality
