import NetworkFinality.Model.Engine
import NetworkFinality.Refinement.SameTables
import NetworkFinality.Refinement.Steps
import NetworkFinality.Semantics.Twin
import NetworkFinality.Spec.Outcome
import NetworkFinality.Spec.Sink

/-!
# Calls on two worlds with one table

Two worlds that differ only in the classes of their stores hold one table each. A call
ends alike in both and leaves one table again. The identifiers that it draws have to be
new, since the in-memory evidence store replaces what SQLite refuses. And the counter
has to fit into 64 bits, which SQLite binds and the in-memory store does not ask for.
-/

namespace NetworkFinality

open Python Semantics Procedure

/-- The worlds differ at most in the classes of their stores, and the identifiers are new. -/
structure World.SameTables (evidenceIds authorityIds : List Str) (left right : World) : Prop where
  clock : left.clock = right.clock
  state : left.state = right.state
  nonceRegistry : left.nonceRegistry = right.nonceRegistry
  networks : left.networks = right.networks
  evidence : left.evidence = right.evidence
  tail : left.evidenceStore.tail = right.evidenceStore.tail
  activations : left.activations = right.activations
  newEvidence : ∀ id ∈ evidenceIds, left.evidence id = none
  newAuthority : ∀ id ∈ authorityIds, left.activations id = none

namespace World.SameTables

variable {evidenceIds authorityIds : List Str} {left right : World}
  (same : SameTables evidenceIds authorityIds left right)

include same

theorem mono {evidenceIds' authorityIds' : List Str} (evidence : evidenceIds' ⊆ evidenceIds)
    (authority : authorityIds' ⊆ authorityIds) :
    SameTables evidenceIds' authorityIds' left right where
  __ := same
  newEvidence id member := same.newEvidence id (evidence member)
  newAuthority id member := same.newAuthority id (authority member)

variable [Hashlib]

/-- Reads of the state are answered alike. -/
theorem reads {op : Op} (reads : op.readsState = true) :
    (World.exec op left).1 = (World.exec op right).1 := by
  cases op with
  | clock => exact same.clock
  | _ => first | simp only [World.exec, same.state]; done | cases reads

/-- Nonces are reserved alike. -/
theorem reserve (nonce : Str) :
    (World.exec (.reserve nonce) left).1 = (World.exec (.reserve nonce) right).1 ∧
      SameTables evidenceIds authorityIds (World.exec (.reserve nonce) left).2
        (World.exec (.reserve nonce) right).2 := by
  simp only [World.exec, same.nonceRegistry]
  exact ⟨trivial, { same with nonceRegistry := rfl }⟩

/-- Effects are recorded alike. -/
theorem apply (network : Nat) (effect : NetworkEffect) (draw : Option Str) :
    (World.exec (.apply network effect draw) left).1 =
        (World.exec (.apply network effect draw) right).1 ∧
      SameTables evidenceIds authorityIds (World.exec (.apply network effect draw) left).2
        (World.exec (.apply network effect draw) right).2 := by
  cases draw with
  | none => exact ⟨rfl, same⟩
  | some hex =>
      refine ⟨rfl, { same with networks := ?_ }⟩
      simp only [World.exec, DemoNetwork.apply, same.networks]

/-- Flags are read alike. -/
theorem isUsed {authorityId : Str} (encodable : authorityId.Encodable) :
    (World.exec (.isUsed authorityId) left).1 = (World.exec (.isUsed authorityId) right).1 :=
  ActivationStore.isUsed_alike same.activations encodable

/-- Authorities are consumed alike. -/
theorem consume {authorityId : Str} (encodable : authorityId.Encodable) :
    (World.exec (.consume authorityId) left).1 = (World.exec (.consume authorityId) right).1 ∧
      SameTables evidenceIds authorityIds (World.exec (.consume authorityId) left).2
        (World.exec (.consume authorityId) right).2 := by
  obtain ⟨flag, after, after', consumed, consumed', table⟩ :=
    ActivationStore.consume_alike same.activations encodable
  simp only [World.exec, consumed, consumed']
  refine ⟨trivial, { same with activations := table, newAuthority := fun id member => ?_ }⟩
  have absent := same.newAuthority id member
  cases flag with
  | true =>
      have changed := (ActivationStore.consume_true consumed).2.1
      have other : id ≠ authorityId := by
        rintro rfl
        obtain ⟨record, present, -⟩ := (ActivationStore.consume_true consumed).1
        cases absent.symm.trans present
      rw [World.activations, changed, ActivationTable.setUsed_ne other]
      exact absent
  | false =>
      rw [ActivationStore.consume_false consumed]
      exact absent

/-- Consumptions are undone alike. -/
theorem unconsume {authorityId : Str} (encodable : authorityId.Encodable) :
    (World.exec (.unconsume authorityId) left).1 = (World.exec (.unconsume authorityId) right).1 ∧
      SameTables evidenceIds authorityIds (World.exec (.unconsume authorityId) left).2
        (World.exec (.unconsume authorityId) right).2 := by
  obtain ⟨after, after', restored, restored', table⟩ :=
    ActivationStore.unconsume_alike same.activations encodable
  simp only [World.exec, restored, restored']
  refine ⟨trivial, { same with activations := table, newAuthority := fun id member => ?_ }⟩
  have absent : left.activationStore.table id = none := same.newAuthority id member
  simp [World.activations, ActivationStore.table_unconsume restored, ActivationTable.setUsed, absent]

end World.SameTables

section

variable [Hashlib] {evidenceIds authorityIds : List Str} {left right : World}
  {ped : ProtectedEnforcementDomain} {draws : IssueDraws} {candidate : NetworkCandidateAct}
  {now : DateTime}

/-! ### Calls of a domain -/

/-- A program that only reads the state ends alike and leaves the worlds. -/
theorem state_alike {ε α : Type} (program : Procedure system ε α) (state : OnlyState program)
    {related : World → World → Prop}
    (tables : ∀ {left right}, related left right →
      World.SameTables evidenceIds authorityIds left right) (before : related left right) :
    EndsAlike Eq related related (program.run World.exec left) (program.run World.exec right) := by
  refine EndsAlike.of_uses World.exec ?_ state before
  intro op reads left right before
  rw [World.exec_readOnly (Op.isWrite_of_readsState reads) left,
    World.exec_readOnly (Op.isWrite_of_readsState reads) right]
  exact ⟨(tables before).reads reads, before⟩

/-- What recording runs to: the counter is advanced, and evidence committed if it can be. -/
theorem record_run_eq (decision : NetworkValidationDecision) (world : World) :
    (ProtectedEnforcementDomain.record candidate decision draws now).run World.exec world =
      match world.evidenceStore.commit (ProtectedEnforcementDomain.evidenceOf candidate decision
          draws now world.state.protectedStateReference (world.state.monotonicCounter + 1)) with
      | .ok (evidence, store) =>
          (.ok (evidence, {
            decision with
            evidenceId := some evidence.evidenceId
            protectedState := {
              decision.protectedState with monotonicCounter := world.state.monotonicCounter + 1 } }),
            { world with state := world.state.advanceCounter.2, evidenceStore := store })
      | .error reason =>
          (.error (.raised reason), { world with state := world.state.advanceCounter.2 }) := by
  simp only [ProtectedEnforcementDomain.record, ask, perform, call_bind, done_bind, run_call,
    World.exec, ProtectedNetworkState.advanceCounter]
  rcases world.evidenceStore.commit _ with reason | ⟨evidence, store⟩
  · rfl
  · rfl

/-- Evidence is recorded alike, if the counter fits into 64 bits. -/
theorem record_alike (candidate : NetworkCandidateAct) (decision : NetworkValidationDecision)
    (now : DateTime)
    (same : World.SameTables (draws.evidenceId :: evidenceIds) authorityIds left right)
    (new : draws.evidenceId ∉ evidenceIds) (positive : 0 ≤ left.state.monotonicCounter)
    (fits : left.state.monotonicCounter + 1 < 2 ^ 63) :
    EndsAlike Eq (World.SameTables evidenceIds authorityIds)
      (World.SameTables evidenceIds authorityIds)
      ((ProtectedEnforcementDomain.record candidate decision draws now).run World.exec left)
      ((ProtectedEnforcementDomain.record candidate decision draws now).run World.exec right) := by
  have kept := same.mono (List.subset_cons_self ..) (List.Subset.refl _)
  rw [record_run_eq, record_run_eq, ← same.state]
  cases digested : (ProtectedEnforcementDomain.evidenceOf candidate decision draws now
      left.state.protectedStateReference (left.state.monotonicCounter + 1)).bodyDigest
      left.evidenceStore.tail with
  | error reason =>
      rw [EvidenceStore.commit_undigested _ digested,
        EvidenceStore.commit_undigested _ (same.tail ▸ digested)]
      exact .error { kept with state := rfl }
  | ok digest =>
      have free := same.newEvidence draws.evidenceId (List.mem_cons_self ..)
      have integer : bindInteger (left.state.monotonicCounter + 1) = .ok () := by
        rw [bindInteger, if_pos (by omega)]
      obtain ⟨store, committed, tail, table⟩ :=
        EvidenceStore.commit_utc _ digested rfl free integer
      obtain ⟨store', committed', tail', table'⟩ :=
        EvidenceStore.commit_utc right.evidenceStore (same.tail ▸ digested) rfl
          ((congrFun same.evidence _).symm.trans free) integer
      rw [committed, committed']
      refine .ok (by rw [same.tail]) { kept with
        state := rfl
        evidence := ?_
        tail := by rw [tail, tail']
        newEvidence := fun id member => ?_ }
      · have tables : left.evidenceStore.table = right.evidenceStore.table := same.evidence
        simp only [World.evidence, table, table', tables, same.tail]
      · have other : id ≠ draws.evidenceId := by
          rintro rfl
          exact new member
        exact (congrFun table id).trans
          ((Function.update_of_ne other _ _).trans (kept.newEvidence id member))

/-- A decision is made on a counter that is not negative. -/
theorem decision_counter {denial : Option Denial} {decisionId : Str}
    {decision : NetworkValidationDecision} {world after : World}
    (ran : (ped.decision candidate denial decisionId).run World.exec world =
      (.ok decision, after)) : 0 ≤ world.state.monotonicCounter := by
  obtain ⟨past, returned, answered⟩ := (run_ok_iff World.exec).mp ran
  have reads := ProtectedEnforcementDomain.decision_reads.events returned
  obtain ⟨-, answers⟩ := (answered_readOnly World.exec
    fun event performed => World.exec_readOnly (reads event performed)).mp answered
  obtain ⟨attested, _, _, -, snapshots, rfl⟩ := returns_bind.mp returned
  simp only [ask, perform, call_bind, done_bind, returns_call, returns_orRaise_bind, pure_eq_done,
    returns_done] at snapshots
  obtain ⟨_, _, rfl, _, _, rfl, _, -, _, -, _, _, rfl, counter, _, rfl, _, -, read, valid, rfl,
    rfl⟩ := snapshots
  have same : counter = world.state.monotonicCounter := answers ⟨.monotonicCounter, counter⟩ (by simp)
  have natural : (read : Int) = counter := nonNegative_ok valid
  rw [← same, ← natural]
  exact Int.natCast_nonneg read

/-- The texts of the activation record of an authority can be bound. -/
theorem ProtectedEnforcementDomain.Prepared.encodable {evidence : EvidenceRecord}
    {authority : NetworkFinalityAuthority} {activation : ActivationRecord}
    {past : List (Event system)}
    (prepared : ped.Prepared candidate evidence draws now authority activation past) :
    ∀ text ∈ [activation.authorityId, activation.authorityDigest, activation.candidateDigest,
      activation.sinkId, activation.nonce, activation.activationCommitment], text.Encodable := by
  obtain ⟨payload, signed, -⟩ := prepared.issuer
  obtain ⟨authorityId, -, commitment⟩ := NetworkFinalityAuthority.encodable signed
  obtain ⟨nonce, sinkId⟩ := NetworkCandidateAct.encodable prepared.candidateDigest
  simp only [List.forall_mem_cons, List.not_mem_nil, false_implies, implies_true, and_true]
  rw [prepared.activationId, prepared.activationSink, prepared.activationNonce,
    ← prepared.binding.commitment]
  exact ⟨authorityId, (encodable_of_digestValue prepared.authorityDigest).1,
    (encodable_of_digestValue prepared.candidateDigest).1, sinkId, nonce, commitment⟩

/-- Putting a record that can be bound leaves one table. -/
theorem World.SameTables.put {activation : ActivationRecord}
    (same : World.SameTables evidenceIds (activation.authorityId :: authorityIds) left right)
    (new : activation.authorityId ∉ authorityIds)
    (encodable : ∀ text ∈ [activation.authorityId, activation.authorityDigest,
      activation.candidateDigest, activation.sinkId, activation.nonce,
      activation.activationCommitment], text.Encodable) :
    ∃ left' right', World.exec (.putActivation activation) left = (.ok (), left') ∧
      World.exec (.putActivation activation) right = (.ok (), right') ∧
      World.SameTables evidenceIds authorityIds left' right' := by
  have free : left.activationStore.table activation.authorityId = none :=
    same.newAuthority activation.authorityId (List.mem_cons_self ..)
  obtain ⟨after, after', stored, stored', tables, table⟩ :=
    ActivationStore.put_alike same.activations encodable free
  refine ⟨{ left with activationStore := after }, { right with activationStore := after' },
    by simp only [World.exec, stored], by simp only [World.exec, stored'], ?_⟩
  have kept := same.mono (List.Subset.refl _) (List.subset_cons_self ..)
  refine { kept with activations := tables, newAuthority := fun id member => ?_ }
  have other : id ≠ activation.authorityId := by
    rintro rfl
    exact new member
  exact (congrFun table id).trans
    ((Function.update_of_ne other _ _).trans (kept.newAuthority id member))

/-- An authority is returned once its record has been put. -/
private theorem stored_run {authority : NetworkFinalityAuthority} {activation : ActivationRecord}
    {world after : World}
    (put : World.exec (.putActivation activation) world = (.ok (), after)) :
    (do
      let stored ← ask (.putActivation activation)
      orRaise stored
      return authority : Program NetworkFinalityAuthority).run World.exec world =
        (.ok authority, after) := by
  simp only [ask, perform, call_bind, done_bind, run_call, put, orRaise_ok, pure_eq_done, run_done]

/-- Authorities are issued alike. -/
theorem issue_alike {evidence : EvidenceRecord}
    (same : World.SameTables evidenceIds (draws.authorityId :: authorityIds) left right)
    (new : draws.authorityId ∉ authorityIds) :
    EndsAlike Eq (World.SameTables evidenceIds authorityIds)
      (World.SameTables evidenceIds authorityIds)
      ((ped.issue candidate evidence draws now).run World.exec left)
      ((ped.issue candidate evidence draws now).run World.exec right) := by
  have weaken {left right : World}
      (same : World.SameTables evidenceIds (draws.authorityId :: authorityIds) left right) :
      World.SameTables evidenceIds authorityIds left right :=
    same.mono (List.Subset.refl _) (List.subset_cons_self ..)
  have preparing := state_alike (ped.prepare candidate evidence draws now)
    ProtectedEnforcementDomain.prepare_state (fun related => related) same
  refine EndsAlike.bind World.exec (preparing.mono id id weaken) ?_
  rintro ⟨authority, activation⟩ _ left right prepared - rfl same
  obtain ⟨past, returned, -⟩ := (run_ok_iff World.exec).mp prepared
  have fields := ProtectedEnforcementDomain.prepare_returns returned
  have named : activation.authorityId = draws.authorityId :=
    fields.activationId.trans fields.authorityId
  rw [← named] at same new
  obtain ⟨left', right', put, put', after⟩ := same.put new fields.encodable
  dsimp only
  rw [stored_run put, stored_run put']
  exact .ok rfl after

/-- A candidate is decided alike, if the counter fits into 64 bits. -/
theorem validateAndIssue_alike (ped : ProtectedEnforcementDomain) (candidate : NetworkCandidateAct)
    (same : World.SameTables (draws.evidenceId :: evidenceIds) (draws.authorityId :: authorityIds)
      left right)
    (newEvidence : draws.evidenceId ∉ evidenceIds) (newAuthority : draws.authorityId ∉ authorityIds)
    (fits : left.state.monotonicCounter + 1 < 2 ^ 63) :
    EndsAlike Eq (World.SameTables evidenceIds authorityIds)
      (World.SameTables evidenceIds authorityIds)
      ((ped.validateAndIssue draws candidate).run World.exec left)
      ((ped.validateAndIssue draws candidate).run World.exec right) := by
  -- Up to the record, both worlds keep their counters.
  let related (left' right' : World) : Prop :=
    World.SameTables (draws.evidenceId :: evidenceIds) (draws.authorityId :: authorityIds)
      left' right' ∧ left'.state = left.state
  have weaken {left right : World} (same : World.SameTables (draws.evidenceId :: evidenceIds)
      (draws.authorityId :: authorityIds) left right) :
      World.SameTables evidenceIds authorityIds left right :=
    same.mono (List.subset_cons_self ..) (List.subset_cons_self ..)
  have reading : EndsAlike Eq related (World.SameTables evidenceIds authorityIds)
      ((ask .clock : Program DateTime).run World.exec left)
      ((ask .clock : Program DateTime).run World.exec right) :=
    .ok same.clock ⟨same, rfl⟩
  refine EndsAlike.bind World.exec reading ?_
  rintro now _ left₁ right₁ - - rfl before
  have screening : EndsAlike Eq related related
      ((ped.screen candidate now).run World.exec left₁)
      ((ped.screen candidate now).run World.exec right₁) := by
    refine EndsAlike.of_uses World.exec ?_ ProtectedEnforcementDomain.screen_state before
    rintro op (reads | rfl) left right ⟨same, state⟩
    · rw [World.exec_readOnly (Op.isWrite_of_readsState reads) left,
        World.exec_readOnly (Op.isWrite_of_readsState reads) right]
      exact ⟨same.reads reads, same, state⟩
    · obtain ⟨answers, after⟩ := same.reserve candidate.freshness.nonce
      exact ⟨answers, after, state⟩
  refine EndsAlike.bind World.exec (screening.mono id id fun after => weaken after.1) ?_
  rintro denial _ left₂ right₂ - - rfl before
  have deciding := state_alike (ped.decision candidate denial draws.decisionId)
    ProtectedEnforcementDomain.decision_state (fun after => after.1) before
  refine EndsAlike.bind World.exec (deciding.mono id id fun after => weaken after.1) ?_
  rintro decision _ left₃ right₃ decided - rfl ⟨same, state⟩
  have kept := ProtectedEnforcementDomain.reads_run ProtectedEnforcementDomain.decision_reads decided
  have positive := decision_counter decided
  rw [← kept] at positive
  have recording := record_alike candidate decision now same newEvidence positive
    (by rw [state]; exact fits)
  refine EndsAlike.bind World.exec
    (recording.mono id id fun after => after.mono (List.Subset.refl _) (List.subset_cons_self ..)) ?_
  rintro ⟨evidence, decision⟩ _ left₄ right₄ - - rfl same
  cases denial with
  | some denial =>
      exact .ok rfl (same.mono (List.Subset.refl _) (List.subset_cons_self ..))
  | none =>
      refine EndsAlike.bind World.exec (issue_alike same newAuthority) ?_
      rintro authority _ left₅ right₅ - - rfl after
      exact .ok rfl after

/-! ### Calls of a sink -/

/-- Operations that worlds with one table answer alike: their texts can be bound. -/
def Op.Bindable : Op → Prop
  | .getEvidence id | .isUsed id | .consume id | .unconsume id => id.Encodable
  | .apply .. => True
  | op => op.readsState = true

omit [Hashlib] in
theorem Op.bindable_of_readsState {op : Op} (reads : op.readsState = true) : op.Bindable := by
  cases op with
  | apply network effect draw => trivial
  | _ => first | exact reads | cases reads

/-- A program of such operations ends alike. -/
theorem bindable_alike {ε α : Type} {program : Procedure system ε α}
    (bindable : program.Uses Op.Bindable)
    (same : World.SameTables evidenceIds authorityIds left right) :
    EndsAlike Eq (World.SameTables evidenceIds authorityIds)
      (World.SameTables evidenceIds authorityIds)
      (program.run World.exec left) (program.run World.exec right) := by
  refine EndsAlike.of_uses World.exec ?_ bindable same
  intro op bindable left right same
  cases op with
  | getEvidence id =>
      refine ⟨?_, same⟩
      simp only [World.exec]
      rw [EvidenceStore.get_encodable _ bindable, EvidenceStore.get_encodable _ bindable]
      exact congrArg Except.ok (congrFun same.evidence id)
  | isUsed id => exact ⟨same.isUsed bindable, same⟩
  | consume id => exact same.consume bindable
  | unconsume id => exact same.unconsume bindable
  | apply network effect draw => exact same.apply network effect draw
  | reserve nonce => cases bindable
  | advanceCounter => cases bindable
  | commitEvidence fields => cases bindable
  | putActivation record => cases bindable
  | getActivation id => cases bindable
  | _ => exact ⟨same.reads rfl, same⟩

variable {sink : NetworkFinalitySink} {request : SinkRequest}
  {authority : NetworkFinalityAuthority} {checks : Dict Str} {digest : Str}

/-- Activation records are found alike, up to their flags. -/
theorem getActivation_alike {authorityId : Str} (encodable : authorityId.Encodable)
    (same : World.SameTables evidenceIds authorityIds left right) :
    EndsAlike (fun found found' : Except PyError (Option ActivationRecord) =>
        (found = .ok none ∧ found' = .ok none) ∨
          ∃ record used, found = .ok (some record) ∧ found' = .ok (some (record.withUsed used)))
      (World.SameTables evidenceIds authorityIds) (World.SameTables evidenceIds authorityIds)
      ((ask (.getActivation authorityId) : Program _).run World.exec left)
      ((ask (.getActivation authorityId) : Program _).run World.exec right) := by
  obtain ⟨found, found', read, read', records⟩ :=
    ActivationStore.get_alike same.activations encodable
  refine .ok ?_ same
  simp only [World.exec, read, read']
  cases found with
  | none =>
      obtain rfl : found' = none := by simpa using records.symm
      exact .inl ⟨rfl, rfl⟩
  | some record =>
      obtain ⟨record', rfl, equal⟩ := Option.map_eq_some_iff.mp records.symm
      have flagged : record' = record.withUsed record'.used :=
        congrArg (·.withUsed record'.used) equal
      exact .inr ⟨record, record'.used, rfl, by rw [← flagged]⟩

/-- The guards on the activation record pass alike, up to its flag. -/
theorem matchActivation_alike (encodable : authority.authorityId.Encodable)
    (same : World.SameTables evidenceIds authorityIds left right) :
    EndsAlike (fun found found' : ActivationRecord × Dict Str =>
        (∃ used, found'.1 = found.1.withUsed used) ∧ found.2 = found'.2)
      (World.SameTables evidenceIds authorityIds) (World.SameTables evidenceIds authorityIds)
      ((sink.matchActivation request authority now digest checks).run World.exec left)
      ((sink.matchActivation request authority now digest checks).run World.exec right) := by
  refine EndsAlike.bind World.exec (getActivation_alike encodable same) ?_
  rintro _ _ left right - - (⟨rfl, rfl⟩ | ⟨record, used, rfl, rfl⟩) same
  · exact .error same
  refine EndsAlike.exitIf_bind World.exec same ?_
  refine EndsAlike.exitIf_bind World.exec same ?_
  refine EndsAlike.bind World.exec (bindable_alike uses_orRaise same) ?_
  rintro recorded _ left right - - rfl same
  refine EndsAlike.exitIf_bind World.exec same ?_
  refine EndsAlike.exitIf_bind World.exec same ?_
  refine EndsAlike.bind World.exec (bindable_alike (uses_perform.mpr encodable) same) ?_
  rintro answer _ left right - - rfl same
  refine EndsAlike.bind World.exec (bindable_alike uses_orRaise same) ?_
  rintro flag _ left right - - rfl same
  refine EndsAlike.exitIf_bind World.exec same ?_
  exact .ok ⟨⟨used, rfl⟩, rfl⟩ same

omit [Hashlib] in
theorem effectuate_bindable {draw : Option Str} (encodable : authority.authorityId.Encodable) :
    (sink.effectuate request draw authority checks).Uses Op.Bindable := by
  refine Uses.bind (uses_perform.mpr encodable) fun used => Uses.bind uses_orRaise fun used => ?_
  refine Uses.bind uses_exitIf fun _ => Uses.bind (uses_perform.mpr encodable) fun consumed => ?_
  refine Uses.bind uses_orRaise fun consumed => Uses.bind uses_exitIf fun _ => ?_
  refine Uses.bind (uses_perform.mpr trivial) fun applied => ?_
  cases applied with
  | ok effectId => exact uses_done
  | error error =>
      refine Uses.bind (uses_perform.mpr encodable) fun undone => ?_
      exact Uses.bind uses_orRaise fun _ => uses_exit

/-- Guards are passed alike, for an authority whose identifier can be bound. -/
theorem verify_alike (same : World.SameTables evidenceIds authorityIds left right) :
    EndsAlike (fun passed passed' : NetworkFinalityAuthority × Dict Str =>
        passed = passed' ∧ passed.1.authorityId.Encodable)
      (World.SameTables evidenceIds authorityIds) (World.SameTables evidenceIds authorityIds)
      ((sink.verify request).run World.exec left) ((sink.verify request).run World.exec right) := by
  refine EndsAlike.bind World.exec (bindable_alike (uses_perform.mpr rfl) same) ?_
  rintro now _ left right - - rfl same
  refine EndsAlike.bind World.exec (bindable_alike NetworkFinalitySink.authenticate_uses same) ?_
  rintro ⟨authority, checks⟩ _ left right authenticated - rfl same
  obtain ⟨past, returned, -⟩ := (run_ok_iff World.exec).mp authenticated
  obtain ⟨payload, signed, -⟩ :=
    (NetworkFinalitySink.authenticate_returns.mp returned).2.2.signature
  obtain ⟨authorityId, evidenceId, -⟩ := NetworkFinalityAuthority.encodable signed
  refine EndsAlike.bind World.exec
    (bindable_alike (NetworkFinalitySink.matchEvidence_uses evidenceId) same) ?_
  rintro ⟨digest, checks⟩ _ left right - - rfl same
  refine EndsAlike.bind World.exec (matchActivation_alike authorityId same) ?_
  rintro ⟨activation, checks⟩ ⟨_, _⟩ left right - - ⟨⟨used, rfl⟩, rfl⟩ same
  refine EndsAlike.bind World.exec (bindable_alike NetworkFinalitySink.matchSink_uses same) ?_
  rintro checks _ left right - - rfl same
  have state : (NetworkFinalitySink.matchState request authority checks).Uses Op.Bindable :=
    NetworkFinalitySink.matchState_uses (Op.bindable_of_readsState rfl)
      fun _ => Op.bindable_of_readsState rfl
  refine EndsAlike.bind World.exec (bindable_alike state same) ?_
  rintro checks _ left right - - rfl same
  -- The scope is compared with the nonce of the activation record, not with its flag.
  have scope : (NetworkFinalitySink.matchScope request authority activation checks).Uses
      Op.Bindable := NetworkFinalitySink.matchScope_uses
  refine EndsAlike.bind World.exec (bindable_alike scope same) ?_
  rintro checks _ left right - - rfl same
  exact .ok ⟨rfl, authorityId⟩ same

/-- A request is answered alike. -/
theorem verifyAndEffectuate_alike (sink : NetworkFinalitySink) (request : SinkRequest)
    (draw : Option Str) (same : World.SameTables evidenceIds authorityIds left right) :
    EndsAlike Eq (World.SameTables evidenceIds authorityIds)
      (World.SameTables evidenceIds authorityIds)
      ((sink.verifyAndEffectuate request draw).run World.exec left)
      ((sink.verifyAndEffectuate request draw).run World.exec right) := by
  refine EndsAlike.bind World.exec (verify_alike same) ?_
  rintro ⟨authority, checks⟩ _ left right - - ⟨rfl, encodable⟩ same
  exact bindable_alike (effectuate_bindable encodable) same

end

end NetworkFinality
